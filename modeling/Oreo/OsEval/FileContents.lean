import Oreo.OsEval.FileTests
import Oreo.Transition.Refinement

namespace Oreo.OsEval

open Oreo.Posix Oreo.Transition Oreo.Transition.Effect

/-! # The file tests as programs on the contents of the file

Neither descriptors nor offsets matter between two calls: each of the tests closes what it has opened.
-/

/-- What is in the file, `none` if there is no file. -/
structure Contents where
  file : Option (List UInt8)
  timed : List Timing

def Contents.length (s : Contents) : Nat := (s.file.getD []).length

abbrev ContentsAction := Effect Fault Contents

def Disk.contents (d : Disk) : Contents := ⟨(d.files.names testFile).map d.files.bytes, d.timed⟩

namespace ContentsAction

def time (timing : Timing) : ContentsAction Unit := modify fun s => { s with timed := s.timed ++ [timing] }

/-- Without memory there is nothing to fill. -/
def fill (granted : Bool) : ContentsAction Unit := if granted then pure () else throw .nullPointer

/-- Whether the file could be opened. -/
def openFile (create granted : Bool) : ContentsAction Bool := do
  let s ← get
  match s.file with
  | some _ => pure granted
  | none =>
      if granted && create then do
        modify fun s => { s with file := some [] }
        pure true
      else pure false

/-- The first bytes become the letter that the buffers are filled with. -/
def overwrite (limit : Option Nat) (opened : Bool) (size : Nat) : ContentsAction (Option Nat) :=
  match opened, limit with
  | true, some n => do
      modify fun s => { s with
        file := s.file.map fun bytes => List.replicate (min n size) 'a'.toUInt8 ++ bytes.drop (min n size) }
      pure (some (min n size))
  | _, _ => pure none

end ContentsAction

open ContentsAction in
/-- What a call does to the contents. -/
def FileCall.act (fileSize : Nat) : FileCall → ContentsAction Unit
  | .read o => do
      let opened ← openFile false o.opened
      let s ← get
      let returned := min fileSize s.length
      time (.read fileSize (if opened && (o.malloc || returned = 0) then some returned else none))
  | .write o => do
      fill o.malloc
      let opened ← openFile true o.opened
      let returned ← overwrite o.write opened fileSize
      time (.write fileSize returned)
  | .mmap o => do
      let opened ← openFile false o.opened
      time (.mmap fileSize (opened && o.mmap))
  | .pageFault o => do
      let opened ← openFile false o.opened
      let s ← get
      if !(opened && o.mmap) then throw .mapFailed
      else
        match s.file.getD [] with
        | byte :: _ => time (.load byte)
        | [] => throw .bus
  | .munmap o => do
      let opened ← openFile false o.opened
      let s ← get
      if !(opened && o.mmap) then throw .mapFailed
      else if (s.length + (pageSize - 1)) / pageSize * pageSize < fileSize then throw .bus
      else time (.munmap fileSize)
  | .warmup o _ => do
      fill o.malloc
      let opened ← openFile true o.opened
      let _ ← overwrite o.write opened fileSize
      pure ()

def actCalls (calls : List SizedCall) : ContentsAction Unit := calls.forM fun c => c.call.act c.fileSize

/-! ## A file that is open -/

/-- The descriptor is at the start of the file. -/
def OpenedAs (d : Disk) (fd : Nat) : Prop :=
  ∃ file, d.files.description fd = some ⟨file, 0⟩ ∧ d.files.names testFile = some file

variable {d : Disk} {fd : Nat} {create granted : Bool}

theorem result_time (timing : Timing) (d : Disk) :
    (DiskAction.time timing).result d = (.ok ⟨⟩, { d with timed := d.timed ++ [timing] }) := rfl

theorem result_contents_time (timing : Timing) (s : Contents) :
    (ContentsAction.time timing).result s = (.ok ⟨⟩, { s with timed := s.timed ++ [timing] }) := rfl

theorem time_refines (timing : Timing) : Refines Disk.contents (DiskAction.time timing) (ContentsAction.time timing) :=
  fun _ => rfl

theorem result_openFile_existing {file : Nat} (named : d.files.names testFile = some file) :
    (DiskAction.openFile create granted).result d =
      if granted then (.ok (some d.files.lowest), { d with files := d.files.install ⟨file, 0⟩ }) else (.ok none, d) := by
  cases granted <;> simp [DiskAction.openFile, result_bind, named, Except.map]

theorem result_openFile_absent (absent : d.files.names testFile = none) :
    (DiskAction.openFile create granted).result d =
      if granted && create then
        (.ok (some d.files.lowest), { d with files := (d.files.create testFile).install ⟨d.files.fresh, 0⟩ })
      else (.ok none, d) := by
  cases granted <;> cases create <;> simp [DiskAction.openFile, result_bind, absent, Files.openCreate, Except.map]

/-- What `open` does to the contents, and where the descriptor it returns is. -/
theorem openFile_cases (create granted : Bool) (d : Disk) :
    (∃ d' fd, (DiskAction.openFile create granted).result d = (.ok (some fd), d') ∧ OpenedAs d' fd ∧ fd = d.files.lowest ∧
        (∀ other, other ≠ fd → d'.files.description other = d.files.description other) ∧
          (ContentsAction.openFile create granted).result d.contents = (.ok true, d'.contents)) ∨
      (DiskAction.openFile create granted).result d = (.ok none, d) ∧
        (ContentsAction.openFile create granted).result d.contents = (.ok false, d.contents) := by
  cases named : d.files.names testFile with
  | some file =>
      have opens := @result_openFile_existing d create granted file named
      have contents : (ContentsAction.openFile create granted).result d.contents = (.ok granted, d.contents) := by
        simp [ContentsAction.openFile, result_bind, Disk.contents, named]
      cases granted with
      | true =>
          exact .inl ⟨_, _, opens, ⟨file, Files.description_install _ _, named⟩, rfl,
            fun other ne => d.files.description_install_ne _ ne, contents⟩
      | false => exact .inr ⟨opens, contents⟩
  | none =>
      have opens := @result_openFile_absent d create granted named
      have contents : (ContentsAction.openFile create granted).result d.contents =
          if granted && create then (.ok true, ⟨some [], d.timed⟩) else (.ok false, d.contents) := by
        cases granted <;> cases create <;>
          simp [ContentsAction.openFile, result_bind, Disk.contents, named, Except.map]
      by_cases made : (granted && create) = true
      · rw [if_pos made] at opens contents
        have names : ((d.files.create testFile).install ⟨d.files.fresh, 0⟩).names testFile = some d.files.fresh := by
          simp [Files.create]
        refine .inl ⟨_, _, opens, ⟨d.files.fresh, Files.description_install _ _, names⟩, rfl,
          fun other ne => (d.files.create testFile).description_install_ne _ ne, contents.trans ?_⟩
        simp [Disk.contents, Files.install, Files.create]
      · rw [if_neg made] at opens contents
        exact .inr ⟨opens, contents⟩

/-! ## A test from `open` to `close` -/

variable {α : Type} {b : Option Nat → DiskAction α} {c : Bool → ContentsAction α}

theorem contents_close (fd : Option Nat) (d : Disk) : Disk.contents { d with files := fd.elim d.files d.files.close } = d.contents := by
  cases fd <;> rfl

/-- Closing shows nowhere in the contents. -/
theorem closing_refines (fd : Option Nat) (p : DiskAction α) :
    ((p >>= fun a => DiskAction.close fd >>= fun _ => pure a).result d).1 = (p.result d).1 ∧
      ((p >>= fun a => DiskAction.close fd >>= fun _ => pure a).result d).2.contents = (p.result d).2.contents := by
  rw [result_bind]
  rcases p.result d with ⟨e | a, d'⟩
  · exact ⟨rfl, rfl⟩
  · exact ⟨rfl, contents_close fd d'⟩

theorem withFile_refines (create granted : Bool) (absent : Refines Disk.contents (b none) (c false))
    (present : ∀ d fd, OpenedAs d fd → RefinesAt Disk.contents d (b (some fd)) (c true)) :
    Refines Disk.contents (withFile create granted b) (ContentsAction.openFile create granted >>= c) := by
  intro d
  unfold RefinesAt
  rcases openFile_cases create granted d with ⟨d', fd, opens, opened, -, -, contents⟩ | ⟨opens, contents⟩
  · obtain ⟨returned, shown⟩ := @closing_refines d' α (some fd) (b (some fd))
    rw [result_bind_ok contents, withFile, result_bind_ok opens, present d' fd opened, returned, shown]
  · obtain ⟨returned, shown⟩ := @closing_refines d α none (b none)
    rw [result_bind_ok contents, withFile, result_bind_ok opens, absent d, returned, shown]

/-! ## The calls -/

theorem OpenedAs.available {d : Disk} {fd : Nat} (opened : OpenedAs d fd) (size : Nat) :
    d.files.available fd size = min size d.contents.length := by
  obtain ⟨file, found, named⟩ := opened
  simp [Files.available_eq found, Contents.length, Disk.contents, named]

theorem result_sysRead {d : Disk} {fd : Nat} (opened : OpenedAs d fd) (granted : Bool) (size : Nat) :
    (DiskAction.sysRead (some fd) (DiskAction.malloc granted size) size).result d =
      if granted || min size d.contents.length = 0 then
        (.ok (some (min size d.contents.length)), { d with files := d.files.read fd size })
      else (.ok none, d) := by
  unfold DiskAction.sysRead DiskAction.malloc
  rw [result_bind_ok result_get, ← opened.available size]
  cases granted with
  | true => simp [Except.map]
  | false => by_cases empty : d.files.available fd size = 0 <;> simp [empty, Except.map]

theorem read_refines (fileSize : Nat) (o : Outcomes) :
    Refines Disk.contents (readTest fileSize o) ((FileCall.read o).act fileSize) := by
  refine withFile_refines false o.opened (fun d => rfl) fun d fd opened => ?_
  have transfers := result_sysRead opened o.malloc fileSize
  unfold RefinesAt
  rw [result_bind_ok result_get, result_contents_time]
  split at transfers
  · next possible =>
      rw [result_bind_ok transfers, result_time]
      simp only [Bool.true_and, if_pos possible]
      simp [Disk.contents]
  · next refused =>
      rw [result_bind_ok transfers, result_time]
      simp only [Bool.true_and, if_neg refused]
      rfl

/-- What follows the loop that fills a buffer finds the letters in it. -/
theorem fill_refines {α : Type} (granted : Bool) (size : Nat) {p : Pointer UInt8 → DiskAction α} {q : ContentsAction α}
    (rest : Refines Disk.contents (p (some (List.replicate size 'a'.toUInt8))) q) :
    Refines Disk.contents (DiskAction.fill (DiskAction.malloc granted size) >>= p) (ContentsAction.fill granted >>= fun _ => q) := by
  intro d
  cases granted with
  | false => rfl
  | true =>
      have filled : (DiskAction.fill (DiskAction.malloc true size)).result d = (.ok (some (List.replicate size 'a'.toUInt8)), d) := by
        simp [DiskAction.fill, DiskAction.malloc]
      have granted : (ContentsAction.fill true).result d.contents = (.ok (), d.contents) := rfl
      unfold RefinesAt
      rw [result_bind_ok filled, result_bind_ok granted]
      exact rest d

/-- The rest of the file stays. -/
theorem overwrite_start (contents : List UInt8) (data : List UInt8) :
    Files.overwrite contents 0 data = data ++ contents.drop data.length := by
  simp [Files.overwrite]

theorem sysWrite_refines {d : Disk} {fd : Nat} (opened : OpenedAs d fd) (limit : Option Nat) (size : Nat) :
    RefinesAt Disk.contents d (DiskAction.sysWrite limit (some fd) (List.replicate size 'a'.toUInt8))
      (ContentsAction.overwrite limit true size) := by
  obtain ⟨file, found, named⟩ := opened
  cases limit with
  | none => rfl
  | some n =>
      simp [RefinesAt, ContentsAction.overwrite, DiskAction.sysWrite, Disk.contents, named, Files.bytes_write found,
        overwrite_start, Except.map]

theorem write_refines (fileSize : Nat) (o : Outcomes) :
    Refines Disk.contents (writeTest fileSize o) ((FileCall.write o).act fileSize) := by
  refine fill_refines o.malloc fileSize (withFile_refines true o.opened (fun d => rfl) fun d fd opened => ?_)
  exact (sysWrite_refines opened o.write fileSize).bind fun returned => time_refines _

theorem mmap_refines (fileSize : Nat) (o : Outcomes) :
    Refines Disk.contents (mmapTest fileSize o) ((FileCall.mmap o).act fileSize) := by
  refine withFile_refines false o.opened (fun d => ?_) fun d fd opened => ?_
  · cases h : o.mmap <;> rfl
  · obtain ⟨file, found, named⟩ := opened
    cases h : o.mmap <;>
      simp [RefinesAt, DiskAction.sysMmap, result_bind, found, result_time, result_contents_time, Disk.contents]

theorem pageFault_refines (fileSize : Nat) (o : Outcomes) :
    Refines Disk.contents (pageFaultTest o) ((FileCall.pageFault o).act fileSize) := by
  refine withFile_refines false o.opened (fun d => ?_) fun d fd opened => ?_
  · cases h : o.mmap <;> simp [RefinesAt, DiskAction.sysMmap, DiskAction.firstByte, result_bind]
  · obtain ⟨file, found, named⟩ := opened
    cases h : o.mmap with
    | false => simp [RefinesAt, DiskAction.sysMmap, DiskAction.firstByte, result_bind]
    | true =>
        cases bytes : d.files.bytes file with
        | nil => simp [RefinesAt, DiskAction.sysMmap, DiskAction.firstByte, result_bind, found, Disk.contents, named, bytes]
        | cons byte rest =>
            simp [RefinesAt, DiskAction.sysMmap, DiskAction.firstByte, result_bind, found, result_time, result_contents_time,
              Disk.contents, named, bytes]

theorem munmap_refines (fileSize : Nat) (o : Outcomes) :
    Refines Disk.contents (munmapTest fileSize o) ((FileCall.munmap o).act fileSize) := by
  refine withFile_refines false o.opened (fun d => ?_) fun d fd opened => ?_
  · cases h : o.mmap <;> simp [RefinesAt, DiskAction.sysMmap, DiskAction.touch, result_bind]
  · obtain ⟨file, found, named⟩ := opened
    cases h : o.mmap with
    | false => simp [RefinesAt, DiskAction.sysMmap, DiskAction.touch, result_bind]
    | true =>
        by_cases behind : ((d.files.bytes file).length + (pageSize - 1)) / pageSize * pageSize < fileSize
        · simp [RefinesAt, DiskAction.sysMmap, DiskAction.touch, result_bind, found, Disk.contents, Contents.length, named, behind]
        · simp [RefinesAt, DiskAction.sysMmap, DiskAction.touch, result_bind, found, result_time, result_contents_time,
            Disk.contents, Contents.length, named, behind]

/-- A read shows nowhere in the contents, wherever the descriptor is. -/
theorem sysRead_refines (fd : Option Nat) (buf : Pointer UInt8) (size : Nat) :
    Refines Disk.contents (do let _ ← DiskAction.sysRead fd buf size; pure ()) (pure ()) := by
  intro d
  unfold DiskAction.sysRead
  cases fd with
  | none => rfl
  | some fd =>
      by_cases refused : buf = none ∧ ¬ d.files.available fd size = 0
      · simp [RefinesAt, result_bind, refused]
      · simp [RefinesAt, result_bind, refused, Disk.contents]

theorem forM_pure {ι : Type} (items : List ι) : (items.forM fun _ => (pure ⟨⟩ : ContentsAction Unit)) = pure ⟨⟩ := by
  induction items with
  | nil => rfl
  | cons item items ih => exact ih

/-- Opening an existing file, or failing to, changes nothing. -/
theorem result_openFile_reading (granted : Bool) (s : Contents) :
    ∃ opened, (ContentsAction.openFile false granted).result s = (.ok opened, s) := by
  unfold ContentsAction.openFile
  rw [result_bind_ok result_get]
  cases s.file with
  | some bytes => exact ⟨granted, rfl⟩
  | none => exact ⟨false, by simp⟩

theorem readRepeatedly_refines (times : Nat) (fd : Option Nat) (buf : Pointer UInt8) (size : Nat) :
    Refines Disk.contents (readRepeatedly times fd buf size) (pure ()) := by
  rw [← forM_pure (List.range times)]
  exact .forM fun _ _ => sysRead_refines fd buf size

theorem warm_refines (times : Nat) (granted : Bool) (buf : Pointer UInt8) (size : Nat) :
    Refines Disk.contents (withFile false granted fun fd => readRepeatedly times fd buf size) (pure ()) := by
  intro d
  obtain ⟨opened, opens⟩ := result_openFile_reading granted d.contents
  have whole := @withFile_refines _ (fun fd => readRepeatedly times fd buf size) (fun _ => pure ()) false granted
    (readRepeatedly_refines times none buf size) (fun d fd _ => readRepeatedly_refines times (some fd) buf size d) d
  unfold RefinesAt at whole
  rw [result_bind_ok opens] at whole
  exact whole

theorem warmup_refines (fileSize : Nat) (o oIn : Outcomes) :
    Refines Disk.contents (readWarmup fileSize o oIn) ((FileCall.warmup o oIn).act fileSize) := by
  refine fill_refines o.malloc fileSize ?_
  rw [← bind_pure (ContentsAction.openFile true o.opened >>= _)]
  refine .bind (withFile_refines true o.opened (fun d => rfl) fun d fd opened => ?_) fun _ => warm_refines _ _ _ _
  exact (sysWrite_refines opened o.write fileSize).bind fun returned => .pure _

theorem call_refines (fileSize : Nat) (c : FileCall) : Refines Disk.contents (c.perform fileSize) (c.act fileSize) := by
  cases c with
  | read o => exact read_refines fileSize o
  | write o => exact write_refines fileSize o
  | mmap o => exact mmap_refines fileSize o
  | pageFault o => exact pageFault_refines fileSize o
  | munmap o => exact munmap_refines fileSize o
  | warmup o oIn => exact warmup_refines fileSize o oIn

theorem calls_refine (calls : List SizedCall) : Refines Disk.contents (performCalls calls) (actCalls calls) :=
  .forM fun c _ => call_refines c.fileSize c.call

/-! ## The descriptors -/

/-- A descriptor of the process. -/
def descriptionOf (fd : Nat) (d : Disk) : Option Description := d.files.description fd

/-- A test that returns leaves the descriptors as they were. -/
def Restores {α : Type} (p : DiskAction α) : Prop :=
  ∀ d a d', p.result d = (.ok a, d') → ∀ fd, descriptionOf fd d' = descriptionOf fd d

theorem Restores.of_keeps {p : DiskAction α} (keeps : ∀ fd, Keeps (descriptionOf fd) p) : Restores p := by
  intro d a d' returned fd
  have kept := keeps fd d
  rwa [returned] at kept

theorem Restores.bind {β : Type} {p : DiskAction α} {f : α → DiskAction β} (first : Restores p) (second : ∀ a, Restores (f a)) :
    Restores (p >>= f) := by
  intro d c d' returned fd
  obtain ⟨a, d₁, before, after⟩ := result_bind_eq_ok.mp returned
  exact (second a d₁ c d' after fd).trans (first d a d₁ before fd)

theorem Restores.forM {ι : Type} {body : ι → DiskAction Unit} (each : ∀ item, Restores (body item)) (items : List ι) :
    Restores (items.forM body) := by
  induction items with
  | nil => exact .of_keeps fun _ => .pure
  | cons item items ih => exact Restores.bind (each item) fun _ => ih

/-- The descriptor that is closed is the one that was opened, and the body leaves the others alone. -/
theorem withFile_restores (create granted : Bool) (body : ∀ fd other, fd ≠ some other → Keeps (descriptionOf other) (b fd)) :
    Restores (withFile create granted b) := by
  intro d a d' returned other
  obtain ⟨fd, d₁, opens, returned⟩ := result_bind_eq_ok.mp returned
  obtain ⟨a', d₂, done, returned⟩ := result_bind_eq_ok.mp returned
  obtain ⟨-, rfl⟩ := Prod.mk.inj returned
  rcases openFile_cases create granted d with ⟨d₁', fd', opens', -, lowest, others, -⟩ | ⟨opens', -⟩
  · obtain ⟨same, rfl⟩ := Prod.mk.inj (opens'.symm.trans opens)
    obtain rfl := Except.ok.inj same
    change (d₂.files.close fd').description other = d.files.description other
    rw [Files.description_close]
    split
    · next here => rw [here, lowest, d.files.description_lowest]
    · next elsewhere =>
        have kept := body (some fd') other (fun same => elsewhere (Option.some.inj same).symm) d₁'
        rw [done] at kept
        exact kept.trans (others other elsewhere)
  · obtain ⟨same, rfl⟩ := Prod.mk.inj (opens'.symm.trans opens)
    obtain rfl := Except.ok.inj same
    have kept := body none other (by simp) d
    rwa [done] at kept

theorem keeps_time (fd : Nat) (timing : Timing) : Keeps (descriptionOf fd) (DiskAction.time timing) := fun _ => rfl

theorem keeps_fill (fd : Nat) (buf : Pointer UInt8) : Keeps (descriptionOf fd) (DiskAction.fill buf) := by
  cases buf with
  | none => exact .throw
  | some data => exact .pure

theorem keeps_sysRead {fd : Option Nat} {other : Nat} (elsewhere : fd ≠ some other) (buf : Pointer UInt8) (size : Nat) :
    Keeps (descriptionOf other) (DiskAction.sysRead fd buf size) := by
  refine .bind .get fun d => ?_
  cases fd with
  | none => exact .pure
  | some fd =>
      refine .ite .pure (.bind (.modify fun d' => ?_) fun _ => .pure)
      exact d'.files.description_read_ne (fun same => elsewhere (congrArg some same.symm)) size

theorem keeps_sysWrite {fd : Option Nat} {other : Nat} (elsewhere : fd ≠ some other) (limit : Option Nat) (data : List UInt8) :
    Keeps (descriptionOf other) (DiskAction.sysWrite limit fd data) := by
  unfold DiskAction.sysWrite
  split
  · next fd n =>
      refine .bind (.modify fun d => ?_) fun _ => .pure
      exact d.files.description_write_ne (fun same => elsewhere (congrArg some same.symm)) _
  · exact .pure

theorem keeps_sysMmap (other : Nat) (granted : Bool) (fd : Option Nat) :
    Keeps (descriptionOf other) (DiskAction.sysMmap granted fd) :=
  .bind .get fun _ => .pure

theorem keeps_firstByte (other : Nat) (addr : Mapping) : Keeps (descriptionOf other) (DiskAction.firstByte addr) := by
  refine .bind .get fun d => ?_
  cases addr with
  | none => exact .throw
  | some file =>
      dsimp only
      cases d.files.bytes file with
      | nil => exact .throw
      | cons byte rest => exact .pure

theorem keeps_touch (other : Nat) (addr : Mapping) (size : Nat) : Keeps (descriptionOf other) (DiskAction.touch addr size) := by
  refine .bind .get fun d => ?_
  cases addr with
  | none => exact .throw
  | some file => exact .ite .throw .pure

theorem keeps_forM {ι : Type} {other : Nat} {body : ι → DiskAction Unit} (each : ∀ item, Keeps (descriptionOf other) (body item))
    (items : List ι) : Keeps (descriptionOf other) (items.forM body) := by
  induction items with
  | nil => exact .pure
  | cons item items ih => exact Keeps.bind (each item) fun _ => ih

theorem call_restores (fileSize : Nat) (c : FileCall) : Restores (c.perform fileSize) := by
  have fills (buf : Pointer UInt8) : Restores (DiskAction.fill buf) := .of_keeps fun fd => keeps_fill fd buf
  cases c with
  | read o =>
      refine withFile_restores _ _ fun fd other elsewhere => ?_
      exact .bind (keeps_sysRead elsewhere _ _) fun _ => keeps_time other _
  | write o =>
      refine .bind (fills _) fun buf => withFile_restores _ _ fun fd other elsewhere => ?_
      exact .bind (keeps_sysWrite elsewhere _ _) fun _ => keeps_time other _
  | mmap o =>
      refine withFile_restores _ _ fun fd other _ => ?_
      exact .bind (keeps_sysMmap other _ _) fun _ => keeps_time other _
  | pageFault o =>
      refine withFile_restores _ _ fun fd other _ => ?_
      exact .bind (keeps_sysMmap other _ _) fun addr => .bind (keeps_firstByte other addr) fun _ => keeps_time other _
  | munmap o =>
      refine withFile_restores _ _ fun fd other _ => ?_
      exact .bind (keeps_sysMmap other _ _) fun addr => .bind (keeps_touch other addr _) fun _ => keeps_time other _
  | warmup o oIn =>
      refine .bind (fills _) fun buf => .bind (withFile_restores _ _ fun fd other elsewhere => ?_) fun _ =>
        withFile_restores _ _ fun fd other elsewhere => keeps_forM (fun _ => ?_) _
      · exact .bind (keeps_sysWrite elsewhere _ _) fun _ => .pure
      · exact .bind (keeps_sysRead elsewhere _ _) fun _ => .pure

theorem performCalls_restores (calls : List SizedCall) : Restores (performCalls calls) :=
  @Restores.forM SizedCall (fun c => c.call.perform c.fileSize) (fun c => call_restores c.fileSize c.call) calls

/-- Whatever calls are made, with files of whatever size, and however their system calls end: what is
timed, what is in the file after them, and whether and how the process is killed follow from the
contents alone; and if it is not killed, its descriptors are as they were. -/
theorem file_calls_refine_contents (calls : List SizedCall) :
    Refines Disk.contents (performCalls calls) (actCalls calls) ∧ Restores (performCalls calls) :=
  ⟨calls_refine calls, performCalls_restores calls⟩

end Oreo.OsEval
