/-
# The file store

A write goes through the file system in several calls on three files: the store file,
a temporary one and a backup. Each call is atomic. It may fail, and the process may
stop before it. The model names the calls of one write and takes from outside which of
them fail and where the process stops. A read looks at the store file only.

If the temporary file cannot be renamed over the store file, the store file is moved
aside first. From then on until another rename succeeds there is no store file.
-/

import Haf.Federation.State
import Haf.Lib.Attempt
import Haf.Persist.Container

namespace Haf

open Interrupted Sequence

/-! ### Files -/

/-- The files of a store: the store file, its `.tmp` and its `.bak`. -/
structure Files where
  path : Option Bytes
  temporary : Option Bytes
  backup : Option Bytes
  deriving DecidableEq

/-- The calls to the file system in a write, in the order of the source. -/
inductive Site
  | createDirectories | openTemporary | writeTemporary | removeUnwritten
  | publish | removeBackup | moveAside | removeUnmoved
  | republish | restore | removeUnpublished | cleanUp
  deriving DecidableEq

namespace Files

/-- Rename the temporary file over the store file. -/
def temporaryToPath (files : Files) : Option Files :=
  files.temporary.map fun file => { files with path := some file, temporary := none }

/-- Rename the store file to the backup. -/
def pathToBackup (files : Files) : Option Files :=
  files.path.map fun file => { files with backup := some file, path := none }

/-- Rename the backup to the store file. -/
def backupToPath (files : Files) : Option Files :=
  files.backup.map fun file => { files with path := some file, backup := none }

def removeTemporary (files : Files) : Option Files := some { files with temporary := none }

def removeBackup (files : Files) : Option Files := some { files with backup := none }

def setTemporary (content : Bytes) (files : Files) : Option Files :=
  some { files with temporary := some content }

end Files

/-! ### The store -/

/-- A store at a path with a parent directory, which may be empty. -/
structure FileStore where
  path : Bytes
  parent : Bytes

namespace FileStore

open Attempt

/-- Publish the temporary file after the store file, if there was one, was moved aside. The
messages are the texts of the error codes the calls leave behind. -/
def publishAside (course : Course Site) (message : Site → Bytes) :
    Attempt Files (Result Unit) := do
  let published ← call course .republish Files.temporaryToPath
  if published then
    let _ ← call course .cleanUp Files.removeBackup
    pure (.ok ())
  else
    let _ ← call course .restore Files.backupToPath
    let _ ← call course .removeUnpublished Files.removeTemporary
    pure (.error ⟨.persistenceFailure, text "cannot publish the new store file: " ++
      message .removeUnpublished⟩)

/-- Move the store file aside and publish the temporary one. -/
def moveAside (course : Course Site) (message : Site → Bytes) :
    Attempt Files (Result Unit) := do
  let moved ← call course .moveAside Files.pathToBackup
  if moved then publishAside course message
  else
    let _ ← call course .removeUnmoved Files.removeTemporary
    pure (.error ⟨.persistenceFailure, text "cannot move the previous store file aside: " ++
      message .removeUnmoved⟩)

/-- Replace the store file when the temporary one cannot be renamed over it. -/
def replaceAside (course : Course Site) (message : Site → Bytes) :
    Attempt Files (Result Unit) := do
  let _ ← call course .removeBackup Files.removeBackup
  let present ← look (·.path.isSome)
  if present then moveAside course message else publishAside course message

/-- Write a sibling temporary file and move it over the target. -/
def replace (course : Course Site) (message : Site → Bytes) (payload : Bytes) :
    Attempt Files (Result Unit) := do
  let opened ← call course .openTemporary (Files.setTemporary [])
  if opened then
    let written ← call course .writeTemporary (Files.setTemporary (container payload))
    if written then
      let published ← call course .publish Files.temporaryToPath
      if published then pure (.ok ()) else replaceAside course message
    else
      let _ ← call course .removeUnwritten Files.removeTemporary
      pure (.error (.failure .persistenceFailure
        "failed while writing the temporary store file"))
  else
    pure (.error (.failure .persistenceFailure "cannot open temporary store file for writing"))

def write (store : FileStore) (course : Course Site) (message : Site → Bytes)
    (payload : Bytes) : Attempt Files (Result Unit) :=
  if Limits.maxStorePayloadBytes < payload.length then
    pure (.error (.failure .boundsExceeded "payload exceeds the maximum persisted size"))
  else if store.parent = [] then replace course message payload
  else do
    let created ← call course .createDirectories some
    if created then replace course message payload
    else
      pure (.error ⟨.persistenceFailure, text "cannot create store directory '" ++
        store.parent ++ text "': " ++ message .createDirectories⟩)

def read (store : FileStore) (files : Files) : Result Bytes :=
  match files.path with
  | none => .error ⟨.notFound, text "store file does not exist: " ++ store.path⟩
  | some file => readContainer file

end FileStore

/-! ### How a write ends -/

/-- The store file when a write of `new` over `old` has ended: the new content if it reported
success, the old one if it reported an error, and one of them if the process stopped. -/
inductive Replaced (old new : Bytes) : Option (Result Unit) × Files → Prop
  | stopped {files : Files} (held : files.path = some old ∨ files.path = some new) :
      Replaced old new (none, files)
  | refused {files : Files} (status : Status) (held : files.path = some old) :
      Replaced old new (some (.error status), files)
  | accepted {files : Files} (held : files.path = some new) :
      Replaced old new (some (.ok ()), files)

variable {ended : Option (Result Unit) × Files} {new old : Bytes}

theorem Replaced.of_refused {status : Status}
    (result : ended.1 = none ∨ ended.1 = some (.error status)) (held : ended.2.path = some old) :
    Replaced old new ended := by
  obtain ⟨outcome, after⟩ := ended
  rcases result with rfl | rfl
  · exact .stopped (.inl held)
  · exact .refused status held

theorem Replaced.of_accepted
    (result : ended.1 = none ∨ ended.1 = some (.ok ())) (held : ended.2.path = some new) :
    Replaced old new ended := by
  obtain ⟨outcome, after⟩ := ended
  rcases result with rfl | rfl
  · exact .stopped (.inr held)
  · exact .accepted held

/-- The store file is gone if the course strands it, and is replaced otherwise. -/
def EndsBy (strands : Prop) (old new : Bytes) (ended : Option (Result Unit) × Files) : Prop :=
  strands ∧ ended.2.path = none ∨ ¬ strands ∧ Replaced old new ended

theorem EndsBy.congr {strands strands' : Prop}
    (ends : EndsBy strands old new ended)
    (same : strands' ↔ strands) : EndsBy strands' old new ended := by
  rwa [EndsBy, same]

namespace FileStore

open Attempt

variable {course : Course Site} {message : Site → Bytes} {old new : Bytes} {files : Files}

/-- A last call whose result does not matter, and which leaves the store file alone. -/
theorem call_last {i : Site} {effect : Files → Option Files} (result : Result Unit)
    (leaves : ∀ t, effect files = some t → t.path = files.path)
    {Q : Option (Result Unit) × Files → Prop}
    (holds : ∀ ended : Option (Result Unit) × Files, (ended.1 = none ∨ ended.1 = some result) →
      ended.2.path = files.path → Q ended) :
    Q ((do let _ ← call course i effect; pure result : Attempt Files (Result Unit)).run files) := by
  apply call_bind
  · intro _
    exact holds _ (.inl rfl) rfl
  · intro _ _
    exact holds _ (.inr rfl) rfl
  · intro t _ _ reached
    exact holds _ (.inr rfl) (leaves t reached)

/-- The backup is not renamed back after the temporary file could not be renamed. -/
def Unpublished (course : Course Site) : Prop :=
  course.stops .republish = true ∨ course.fails .republish = true ∧
    (course.stops .restore = true ∨ course.fails .restore = true)

/-- Once the store file is in the backup, the temporary file has to be renamed, or the backup
renamed back. -/
theorem publishAside_ends (absent : files.path = none) (saved : files.backup = some old)
    (prepared : files.temporary = some new) :
    EndsBy (Unpublished course) old new ((publishAside course message).run files) := by
  apply call_bind
  · intro stops
    exact .inl ⟨.inl stops, absent⟩
  · intro goes fails
    have failed : course.fails .republish = true := by
      simpa [Files.temporaryToPath, prepared] using fails
    apply call_bind
    · intro stops
      exact .inl ⟨.inr ⟨failed, .inl stops⟩, absent⟩
    · intro goes' fails'
      have unrestored : course.fails .restore = true := by
        simpa [Files.backupToPath, saved] using fails'
      apply call_last
      · intro t reached
        cases reached
        rfl
      · intro ended _ path
        exact .inl ⟨.inr ⟨failed, .inr unrestored⟩, path.trans absent⟩
    · intro t goes' succeeds' restored
      rw [Files.backupToPath, saved] at restored
      cases restored
      apply call_last
      · intro t reached
        cases reached
        rfl
      · intro ended result path
        refine .inr ⟨?_, .of_refused result path⟩
        simp [Unpublished, goes, goes', succeeds']
  · intro t goes succeeds published
    rw [Files.temporaryToPath, prepared] at published
    cases published
    apply call_last
    · intro t reached
      cases reached
      rfl
    · intro ended result path
      refine .inr ⟨?_, .of_accepted result path⟩
      simp [Unpublished, goes, succeeds]

theorem moveAside_ends (present : files.path = some old) (prepared : files.temporary = some new) :
    EndsBy (course.stops .moveAside = false ∧ course.fails .moveAside = false ∧
      Unpublished course) old new ((moveAside course message).run files) := by
  apply call_bind
  · intro stops
    refine .inr ⟨?_, .stopped (.inl present)⟩
    simp [stops]
  · intro goes fails
    have failed : course.fails .moveAside = true := by
      simpa [Files.pathToBackup, present] using fails
    apply call_last
    · intro t reached
      cases reached
      rfl
    · intro ended result path
      refine .inr ⟨?_, .of_refused result (path.trans present)⟩
      simp [failed]
  · intro t goes succeeds moved
    rw [Files.pathToBackup, present] at moved
    cases moved
    have ends : EndsBy (Unpublished course) old new ((publishAside course message).run
        { files with path := none, backup := some old }) := publishAside_ends rfl rfl prepared
    exact ends.congr (by simp [goes, succeeds])

/-- Replacing a store file that has to be moved aside first. -/
theorem replaceAside_ends (present : files.path = some old)
    (prepared : files.temporary = some new) :
    EndsBy (course.stops .removeBackup = false ∧ course.stops .moveAside = false ∧
      course.fails .moveAside = false ∧ Unpublished course) old new
      ((replaceAside course message).run files) := by
  apply call_bind
  · intro stops
    refine .inr ⟨?_, .stopped (.inl present)⟩
    simp [stops]
  · intro goes _
    rw [look_bind, present, Option.isSome_some, if_pos rfl]
    exact (moveAside_ends present prepared).congr (by simp [goes])
  · intro t goes _ removed
    cases removed
    rw [look_bind, show (files.path.isSome) = true by rw [present]; rfl, if_pos rfl]
    have ends : EndsBy _ old new ((moveAside course message).run { files with backup := none }) :=
      moveAside_ends present prepared
    exact ends.congr (by simp [goes])

/-- The store file is moved aside and nothing takes its place. -/
def Strands (store : FileStore) (course : Course Site) : Prop :=
  (store.parent = [] ∨
      course.stops .createDirectories = false ∧ course.fails .createDirectories = false) ∧
    course.stops .openTemporary = false ∧ course.fails .openTemporary = false ∧
    course.stops .writeTemporary = false ∧ course.fails .writeTemporary = false ∧
    course.stops .publish = false ∧ course.fails .publish = true ∧
    course.stops .removeBackup = false ∧ course.stops .moveAside = false ∧
    course.fails .moveAside = false ∧ Unpublished course

theorem replace_ends (payload : Bytes) (present : files.path = some old) :
    EndsBy (course.stops .openTemporary = false ∧ course.fails .openTemporary = false ∧
      course.stops .writeTemporary = false ∧ course.fails .writeTemporary = false ∧
      course.stops .publish = false ∧ course.fails .publish = true ∧
      course.stops .removeBackup = false ∧ course.stops .moveAside = false ∧
      course.fails .moveAside = false ∧ Unpublished course) old (container payload)
      ((replace course message payload).run files) := by
  apply call_bind
  · intro stops
    refine .inr ⟨?_, .stopped (.inl present)⟩
    simp [stops]
  · intro goes fails
    refine .inr ⟨?_, .refused _ present⟩
    have failed : course.fails .openTemporary = true := by
      simpa [Files.setTemporary] using fails
    simp [failed]
  · intro t goes succeeds opened
    cases opened
    apply call_bind
    · intro stops
      refine .inr ⟨?_, .stopped (.inl present)⟩
      simp [stops]
    · intro goes' fails
      have failed : course.fails .writeTemporary = true := by
        simpa [Files.setTemporary] using fails
      apply call_last
      · intro t reached
        cases reached
        rfl
      · intro ended result path
        refine .inr ⟨?_, .of_refused result (path.trans present)⟩
        simp [failed]
    · intro t goes' succeeds' written
      cases written
      apply call_bind
      · intro stops
        refine .inr ⟨?_, .stopped (.inl present)⟩
        simp [stops]
      · intro goes'' fails
        have failed : course.fails .publish = true := by
          simpa [Files.temporaryToPath] using fails
        have ends : EndsBy _ old (container payload) ((replaceAside course message).run
            { files with temporary := some (container payload) }) :=
          replaceAside_ends present rfl
        exact ends.congr (by simp [goes, succeeds, goes', succeeds', goes'', failed])
      · intro t goes'' succeeds'' published
        cases published
        refine .inr ⟨?_, .accepted rfl⟩
        simp [succeeds'']

theorem write_ends (store : FileStore) {payload : Bytes}
    (within : payload.length ≤ Limits.maxStorePayloadBytes) (present : files.path = some old) :
    EndsBy (store.Strands course) old (container payload)
      ((store.write course message payload).run files) := by
  rw [write, if_neg (Nat.not_lt.mpr within)]
  by_cases rootless : store.parent = []
  · rw [if_pos rootless]
    exact (replace_ends payload present).congr (by simp [Strands, rootless])
  · rw [if_neg rootless]
    apply call_bind
    · intro stops
      refine .inr ⟨?_, .stopped (.inl present)⟩
      simp [Strands, rootless, stops]
    · intro goes fails
      refine .inr ⟨?_, .refused _ present⟩
      have failed : course.fails .createDirectories = true := by
        simpa using fails
      simp [Strands, rootless, failed]
    · intro t goes succeeds created
      cases created
      exact (replace_ends payload present).congr (by simp [Strands, goes, succeeds])

/-! ### Atomic replacement -/

/-- After a write of `new` over `old` has ended, a read yields one of them: the new payload if
the write reported success, and the old one if it reported an error. -/
structure ReplacesAtomically (store : FileStore) (old new : Bytes)
    (ended : Option (Result Unit) × Files) : Prop where
  one : store.read ended.2 = .ok old ∨ store.read ended.2 = .ok new
  accepted : ended.1 = some (.ok ()) → store.read ended.2 = .ok new
  refused : ∀ status, ended.1 = some (.error status) → store.read ended.2 = .ok old

theorem read_container (store : FileStore) {payload : Bytes}
    (within : payload.length ≤ Limits.maxStorePayloadBytes)
    (held : files.path = some (container payload)) : store.read files = .ok payload := by
  rw [read, held]
  exact readContainer_eq_ok.mpr ⟨rfl, within⟩

theorem read_absent (store : FileStore) (absent : files.path = none) (payload : Bytes) :
    store.read files ≠ .ok payload := by
  rw [read, absent]
  intro never
  cases never

theorem Replaced.atomically {store : FileStore}
    {ended : Option (Result Unit) × Files}
    (replaced : Replaced (container old) (container new) ended)
    (before : old.length ≤ Limits.maxStorePayloadBytes)
    (after : new.length ≤ Limits.maxStorePayloadBytes) :
    store.ReplacesAtomically old new ended := by
  cases replaced with
  | stopped held =>
      constructor
      · exact held.imp (store.read_container before) (store.read_container after)
      · intro never
        cases never
      · intro _ never
        cases never
  | refused status held =>
      have same := store.read_container before held
      constructor
      · exact .inl same
      · intro never
        cases never
      · intro _ _
        exact same
  | accepted held =>
      have same := store.read_container after held
      constructor
      · exact .inr same
      · intro _
        exact same
      · intro _ never
        cases never

/-- A write replaces the payload atomically exactly if its course does not strand the store
file. -/
theorem replacesAtomically_iff (store : FileStore) (course : Course Site)
    (message : Site → Bytes) (files : Files) (old new : Bytes)
    (present : files.path = some (container old))
    (before : old.length ≤ Limits.maxStorePayloadBytes)
    (after : new.length ≤ Limits.maxStorePayloadBytes) :
    store.ReplacesAtomically old new ((store.write course message new).run files) ↔
      ¬ store.Strands course := by
  have ends : EndsBy (store.Strands course) (container old) (container new)
      ((store.write course message new).run files) := store.write_ends after present
  rcases ends with ⟨strands, absent⟩ | ⟨keeps, replaced⟩
  · constructor
    · intro atomic
      exfalso
      rcases atomic.one with read | read
      · exact store.read_absent absent old read
      · exact store.read_absent absent new read
    · intro keeps
      exact absurd strands keeps
  · constructor
    · intro _
      exact keeps
    · intro _
      exact Replaced.atomically replaced before after

/-- Every call of a write succeeds. -/
def calm : Course Site := ⟨fun _ => false, fun _ => false⟩

theorem replacesAtomically_calm :
    (⟨text "store", []⟩ : FileStore).ReplacesAtomically [1] [2]
      (((⟨text "store", []⟩ : FileStore).write calm (fun _ => []) [2]).run
        ⟨some (container [1]), none, none⟩) := by
  apply (replacesAtomically_iff ⟨text "store", []⟩ calm (fun _ => []) ⟨some (container [1]), none, none⟩
    [1] [2] rfl (by decide) (by decide)).mpr
  rintro ⟨_, _, _, _, _, _, never, _⟩
  cases never

/-- The rename over the store file fails, and the process stops before the second attempt. -/
def stranded : Course Site := ⟨fun site => site = .publish, fun site => site = .republish⟩

/-- A process that stops after the store file was moved aside leaves no store file. -/
theorem stranded_not_found :
    (⟨text "store", []⟩ : FileStore).read (((⟨text "store", []⟩ : FileStore).write stranded
        (fun _ => []) [2]).run ⟨some (container [1]), none, none⟩).2 =
      .error ⟨.notFound, text "store file does not exist: store"⟩ := by
  have ends : EndsBy ((⟨text "store", []⟩ : FileStore).Strands stranded) (container [1])
      (container [2]) (((⟨text "store", []⟩ : FileStore).write stranded (fun _ => []) [2]).run
        ⟨some (container [1]), none, none⟩) := write_ends _ (by decide) rfl
  have strands : (⟨text "store", []⟩ : FileStore).Strands stranded := by
    simp [Strands, Unpublished, stranded]
  rcases ends with ⟨_, absent⟩ | ⟨keeps, _⟩
  · rw [read, absent]
    decide +kernel
  · exact absurd strands keeps

/-! ### The store of the federation -/

/-- The store file holds the payload of a store as the federation sees it. -/
def Holds (files : Files) (s : Store) : Prop :=
  s.kind = .file ∧ files.path = s.payload.map container

/-- Unless its course strands the store file, a write that returns does to the files what the
store of the federation does: it replaces the payload, or fails and keeps it. -/
theorem write_refines (store : FileStore) {payload : Bytes} {result : Result Unit} {after : Files}
    (held : Holds files ⟨.file, some old⟩) (keeps : ¬ store.Strands course)
    (returned : (store.write course message payload).run files = (some result, after)) :
    ∃ fault s, (⟨.file, some old⟩ : Store).write fault payload = (result, s) ∧ Holds after s := by
  by_cases within : payload.length ≤ Limits.maxStorePayloadBytes
  · have ends : EndsBy (store.Strands course) (container old) (container payload)
        ((store.write course message payload).run files) := store.write_ends within held.2
    rw [returned] at ends
    rcases ends with ⟨strands, _⟩ | ⟨_, replaced⟩
    · exact absurd strands keeps
    · cases replaced with
      | refused status same =>
          refine ⟨some status, ⟨.file, some old⟩, ?_, rfl, same⟩
          simp only [Store.write, if_neg (Nat.not_lt.mpr within)]
      | accepted same =>
          refine ⟨none, ⟨.file, some payload⟩, ?_, rfl, same⟩
          simp only [Store.write, if_neg (Nat.not_lt.mpr within)]
  · have large := Nat.not_le.mp within
    rw [write, if_pos large] at returned
    cases returned
    refine ⟨none, ⟨.file, some old⟩, ?_, held⟩
    simp only [Store.write, if_pos large]

theorem write_refines_calm : ∃ fault s,
    (⟨.file, some [1]⟩ : Store).write fault [2] = (.ok (), s) ∧
      Holds ⟨some (container [2]), none, none⟩ s := by
  have returned : ((⟨text "store", []⟩ : FileStore).write calm (fun _ => []) [2]).run
      ⟨some (container [1]), none, none⟩ = (some (.ok ()), ⟨some (container [2]), none, none⟩) := by
    decide +kernel
  exact write_refines _ ⟨rfl, rfl⟩ (by simp [Strands, calm]) returned

end FileStore

end Haf
