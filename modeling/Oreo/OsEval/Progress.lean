import Oreo.OsEval.Pairs

namespace Oreo.OsEval

open Oreo.Transition Interaction

/-! # No sequence of socket tests hangs -/

section Collect

variable {base : Table} {initial : List String} {k : Kernel} {g : Pairing} {cont : Reply → Code Unit} {r : Reply}

/-- The process that `fork` made is the server or the client, and asks for something until it leaves. -/
theorem Pairing.Holds.child_asks (holds : g.Holds base initial k) (stays : ¬ (g.ServerLeft ∨ g.ClientLeft)) :
    ∃ p, k.world.procs[g.child]? = some p ∧ p.status = .running ∧ p.request ≠ none := by
  obtain ⟨server, client⟩ := not_or.mp stays
  obtain ⟨v, doing, busy⟩ : ∃ v, Doing base k g.child v ∧ v.stage ≠ .idle [] := by
    rcases Pairing.Holds.serverAt_cases g with ⟨-, at', -⟩ | ⟨-, -, at'⟩
    · exact ⟨_, at' ▸ holds.server server, by simp⟩
    · exact ⟨_, at' ▸ holds.client client, by simp⟩
  obtain ⟨p, found, running, -⟩ := doing.running
  refine ⟨p, found, running, fun none => ?_⟩
  have asks : k.world.request g.child = p.request := by rw [World.request, found]; rfl
  rcases doing.request with ⟨idle, -⟩ | ⟨c, cont, asked⟩
  · exact busy idle
  · rw [asks, none] at asked
    contradiction

/-- `wait` returns in the parent once the child has left, and collects it. -/
theorem Pairing.Holds.collects (holds : g.Holds base initial k) (asked : k.world.request 0 = some (.wait, cont))
    (permitted : k.permits 0 .wait r = true) :
    (g.ServerLeft ∨ g.ClientLeft) ∧
      ∀ index p, 1 ≤ index → (k.next 0 .wait cont r).world.procs[index]? = some p → p.status = .reaped := by
  have last := holds.last
  have positive := holds.positive
  simp only [Kernel.permits] at permitted
  split at permitted
  · next zombie =>
      obtain ⟨z, zombie⟩ := Option.isSome_iff_exists.mp zombie
      have value : 0 < r.value := by simpa using permitted
      obtain ⟨inside, ended, -⟩ := List.findIdx?_eq_some_iff_getElem.mp zombie
      simp only [Bool.and_eq_true, bne_iff_ne, beq_iff_eq, Option.isNone_iff_eq_none] at ended
      obtain ⟨⟨-, unreaped⟩, silent⟩ := ended
      have found := List.getElem?_eq_getElem inside
      obtain rfl : z = g.child := by
        by_cases first : z = 0
        · subst first
          simp only [World.request, found, Option.bind_some, silent] at asked
          contradiction
        · by_cases earlier : z < g.child
          · exact absurd (holds.earlier z _ (by omega) earlier found) unreaped
          · omega
      refine ⟨?_, fun index p above there => ?_⟩
      · refine Classical.byContradiction fun stays => ?_
        obtain ⟨q, same, -, asks⟩ := holds.child_asks stays
        obtain rfl := Option.some_inj.mp (same.symm.trans found)
        exact asks silent
      · change (k.world.answer 0 .wait cont r).procs[index]? = some p at there
        have nonneg : 0 ≤ r.value := Int.le_of_lt value
        simp only [World.answer, World.collect, zombie, nonneg, and_self, if_true, reduceCtorEq, false_and, if_false,
          List.append_nil] at there
        rw [List.getElem?_modify_ne _ _ (by omega)] at there
        by_cases child : index = g.child
        · rw [child, List.getElem?_modify_eq, found] at there
          obtain rfl := Option.some_inj.mp there
          rfl
        · rw [List.getElem?_modify_ne _ _ (Ne.symm child)] at there
          have below := (List.getElem?_eq_some_iff.mp there).1
          exact holds.earlier index p above (by omega) there
  · next none =>
      simp only [Bool.and_eq_true, Kernel.childless, List.all_eq_true, Bool.or_eq_true, bne_iff_ne, beq_iff_eq] at permitted
      have inside : g.child < k.world.procs.length := by omega
      have found := List.getElem?_eq_getElem inside
      have settled := permitted.2 _ (List.getElem_mem inside)
      rw [holds.parent _ found] at settled
      by_cases left : g.ServerLeft ∨ g.ClientLeft
      · obtain ⟨p, same, killed⟩ := holds.left left
        obtain rfl := Option.some_inj.mp (same.symm.trans found)
        simp [killed] at settled
      · obtain ⟨p, same, running, -⟩ := holds.child_asks left
        obtain rfl := Option.some_inj.mp (same.symm.trans found)
        simp [running] at settled

end Collect

/-! ## The parent on its own -/

def Stage.Sole (o : Objects) : Stage → Prop
  | .idle _ => True
  | .onePipe _ pipe1 _ => o.pipes pipe1 = 0 ∧ pipe1 < o.pipeCount
  | .twoPipes link => link.pipe1 ≠ link.pipe2 ∧ o.pipes link.pipe1 = 0 ∧ o.pipes link.pipe2 = 0
  | _ => False

/-- No other process is left, and nobody has a socket. -/
structure Alone (base : Table) (initial : List String) (k : Kernel) (v : View) : Prop where
  doing : Doing base k 0 v
  sole : v.stage.Sole k.objects
  restored : ∀ todo, v.stage = .idle todo → ∀ fd, v.table.find fd = base.find fd
  clean : ∀ fd x, v.table.find fd ≠ some (.socket x)
  reaped : ∀ index p, 1 ≤ index → k.world.procs[index]? = some p → p.status = .reaped
  named : ∀ x, k.objects.names.lookup serverPath = some x → x < k.objects.socketCount
  path : serverPath ∈ k.world.paths ∨ k.world.procs.length = 1 ∧ serverPath ∉ initial

namespace Alone

variable {base : Table} {initial : List String} {k : Kernel} {v : View} {c : Call} {cont : Reply → Code Unit} {r : Reply}

theorem reaped_next (alone : Alone base initial k v) (notWait : c ≠ .wait) (notFork : c ≠ .fork) :
    ∀ index p, 1 ≤ index → (k.next 0 c cont r).world.procs[index]? = some p → p.status = .reaped := by
  intro index p above found
  have inside := (List.getElem?_eq_some_iff.mp found).1
  have same : (k.next 0 c cont r).world.procs.length = k.world.procs.length := World.length_answer notFork
  have kept : (k.next 0 c cont r).world.procs[index]? = k.world.procs[index]? :=
    World.procs_answer_other (by omega) (by omega) notWait
  rw [kept] at found
  exact alone.reaped index p above found

theorem idles (alone : Alone base initial k v) (asked : k.world.request 0 = some (c, cont)) (idles : Idles c)
    (rest : Follows (Acts base) (cont r) Returned v) : Alone base initial (k.next 0 c cont r) v := by
  obtain ⟨doing, sole, restored, clean, reaped, named, path⟩ := alone
  have kept := @Call.Still.kept k 0 c cont r idles.still
  have objects : (k.next 0 c cont r).objects = k.objects := (idles.nothing _ _ _).1
  refine ⟨doing.next asked ?_ rest (idles.nothing _ _ _).2.symm doing.equipped, ?_, restored, clean, ?_, ?_, ?_⟩
  · rintro rfl
    exact idles
  · rw [objects]
    exact sole
  · exact reaped_next ⟨doing, sole, restored, clean, reaped, named, path⟩ (by rintro rfl; exact idles) (by rintro rfl; exact idles)
  · rw [objects]
    exact named
  · rw [kept.path, kept.procs]
    exact path

/-- A pipe is opened. -/
theorem pipes (alone : Alone base initial k v) (asked : k.world.request 0 = some (.pipe, cont)) {st : Stage}
    (permitted : k.permits 0 .pipe r = true)
    (rest : ∀ t', Piped v.table r k.objects.pipeCount t' → Follows (Acts base) (cont r) Returned ⟨t', st⟩)
    (sole : st.Sole (k.objects.answer v.table r .pipe)) (busy : ∀ todo, st ≠ .idle todo)
    (needs : ∀ h, st.Needs h → h = .readEnd k.objects.pipeCount ∨ h = .writeEnd k.objects.pipeCount ∨ v.stage.Needs h) :
    ∃ t', Alone base initial (k.next 0 .pipe cont r) ⟨t', st⟩ := by
  have table := alone.doing.table_eq
  simp only [Kernel.permits, table, Bool.and_eq_true, bne_iff_ne, beq_iff_eq] at permitted
  obtain ⟨⟨⟨-, free1⟩, free2⟩, different⟩ := permitted
  have piped : Piped v.table r k.objects.pipeCount (v.table.answer k.objects r .pipe) := ⟨free1, free2, different, rfl⟩
  refine ⟨_, alone.doing.next asked (by simp) (rest _ piped) rfl ?_, ?_, fun todo idle => absurd idle (busy todo), ?_,
    alone.reaped_next (by simp) (by simp), alone.named, ?_⟩
  · intro h need
    rcases needs h need with rfl | rfl | need
    · exact ⟨_, piped.found.1⟩
    · exact ⟨_, piped.found.2⟩
    · obtain ⟨fd, found⟩ := alone.doing.equipped h need
      exact ⟨fd, (piped.keeps found).1⟩
  · change st.Sole (k.objects.answer (k.table 0) r .pipe)
    rw [table]
    exact sole
  · intro fd x
    simp only [Table.answer, Table.find_install]
    split
    · simp
    · split
      · simp
      · exact alone.clean fd x
  · exact alone.path.imp id fun first => ⟨(World.length_answer (by simp)).trans first.1, first.2⟩

/-- Both processes go on from the pipes that the parent has opened. -/
theorem forks {t : Table} {link : Link} (alone : Alone base initial k ⟨t, .twoPipes link⟩)
    (lengths : k.tables.length = k.world.procs.length) (asked : k.world.request 0 = some (.fork, cont))
    (permitted : k.permits 0 .fork r = true)
    (inChild : Follows (Acts base) (cont { r with value := 0 }) Returned ⟨t, link.child⟩)
    (inParent : Follows (Acts base) (cont r) Returned ⟨t, link.parent⟩) :
    Pairing.Holds ⟨link, k.world.procs.length, k.objects.socketCount, 0, 0, t, 0, 0, t⟩ base initial (k.next 0 .fork cont r) := by
  have positive : 0 < r.value := by simpa [Kernel.permits] using permitted
  have inside := alone.doing.inside
  obtain ⟨apart, empty1, empty2⟩ := alone.sole
  have procs : (k.next 0 .fork cont r).world.procs =
      k.world.procs.modify 0 (fun p => p.resume .fork cont r) ++ [Proc.spawn cont r 0] := by
    simp [Kernel.next, Kernel.answer, World.answer, positive]
  have serverNeeds : ∀ h, Stage.Needs (.server link 0 0) h → Stage.Needs (.twoPipes link) h := by
    intro h needs
    rcases needs with ⟨rfl, -⟩ | ⟨rfl, -⟩ | ⟨-, late, -⟩
    · exact .inr (.inl rfl)
    · exact .inr (.inr (.inl rfl))
    · omega
  have clientNeeds : ∀ h, Stage.Needs (.client link 0 0) h → Stage.Needs (.twoPipes link) h := by
    intro h needs
    rcases needs with ⟨rfl, -⟩ | ⟨rfl, -⟩
    · exact .inl rfl
    · exact .inr (.inr (.inr rfl))
  have child {st : Stage} (at' : st = link.child) (needs : ∀ h, st.Needs h → Stage.Needs (.twoPipes link) h) :
      Doing base (k.next 0 .fork cont r) k.world.procs.length ⟨t, st⟩ := by
    refine ⟨⟨Proc.spawn cont r 0, ?_, rfl, ?_⟩, ?_, fun h need => alone.doing.equipped h (needs h need)⟩
    · rw [procs, List.getElem?_append_right (by simp)]
      simp
    · rw [at']
      exact inChild
    · change (k.tables.set 0 _ ++ [k.table 0])[k.world.procs.length]? = _
      rw [← lengths, List.getElem?_append_right (by simp)]
      simp [alone.doing.table_eq]
  have parent {st : Stage} (at' : st = link.parent) (needs : ∀ h, st.Needs h → Stage.Needs (.twoPipes link) h) :
      Doing base (k.next 0 .fork cont r) 0 ⟨t, st⟩ :=
    alone.doing.next asked (by simp) (by rw [at']; exact inParent) rfl fun h need => alone.doing.equipped h (needs h need)
  have last : (k.next 0 .fork cont r).world.procs.length = k.world.procs.length + 1 := by rw [procs]; simp
  refine ⟨fun _ => ?_, fun _ => ?_, ?_, by dsimp only; omega, last, ?_, ?_, ?_, ?_, ?_⟩
  · cases test : link.test with
    | send => simpa [Pairing.serverAt, test] using child (by simp [Link.child, test]) serverNeeds
    | recv => simpa [Pairing.serverAt, test] using parent (by simp [Link.parent, test]) serverNeeds
  · cases test : link.test with
    | send => simpa [Pairing.clientAt, test] using parent (by simp [Link.parent, test]) clientNeeds
    | recv => simpa [Pairing.clientAt, test] using child (by simp [Link.child, test]) clientNeeds
  · rintro (⟨-, left⟩ | ⟨-, left⟩) <;> contradiction
  · intro p found
    rw [procs, List.getElem?_append_right (by simp)] at found
    obtain rfl : Proc.spawn cont r 0 = p := by simpa using found
    rfl
  · intro index p above earlier found
    rw [procs, List.getElem?_append_left (by simpa using earlier), List.getElem?_modify_ne _ _ (by omega)] at found
    exact alone.reaped index p above found
  · constructor <;> intros <;> dsimp only at * <;> omega
  · change Bytes k.objects link 0 0
    exact ⟨apart, fun _ => by simpa using empty1, fun _ => by simpa using empty1, by simpa using empty2⟩
  · have path : serverPath ∈ (k.next 0 .fork cont r).world.paths ↔ serverPath ∈ k.world.paths := Kernel.path_next rfl
    by_cases present : serverPath ∈ k.world.paths
    · refine .inr ⟨path.mpr present, alone.named, Nat.le_refl _, ?_, ?_⟩ <;>
        exact fun fd x found => absurd found (alone.clean fd x)
    · obtain ⟨single, absent⟩ := alone.path.resolve_left present
      refine .inl ⟨⟨by rw [last, single], absent⟩, ?_, fun _ => mt path.mp present, ?_, ?_, ?_, ?_, ?_, ?_, ?_, ?_⟩
      all_goals
        intros
        dsimp only at *
        omega

end Alone

/-! ## Runs -/

/-- How many invocations have not forked yet. -/
def Stage.left : Stage → Nat
  | .idle todo => todo.length
  | .onePipe _ _ todo => todo.length + 1
  | .twoPipes link => link.todo.length + 1
  | .server link _ _ | .client link _ _ => link.todo.length

/-- The parent is on its own, or there is a pair of processes. One process is there before the first of
`total` invocations. -/
def Settled (base : Table) (initial : List String) (total : Nat) (k : Kernel) : Prop :=
  (∃ v, Alone base initial k v ∧ k.world.procs.length + v.stage.left = total + 1) ∨
    ∃ g : Pairing, g.Holds base initial k ∧ k.world.procs.length + g.link.todo.length = total + 1

section Runs

variable {base : Table} {initial : List String} {total : Nat} {k : Kernel} {v : View} {g : Pairing} {c : Call}
  {cont : Reply → Code Unit} {r : Reply}

theorem Idles.plain (idles : Idles c) : c.Plain := by
  cases c <;> first | exact idles.elim | simp [Call.Plain]

theorem Alone.step (alone : Alone base initial k v) (lengths : k.tables.length = k.world.procs.length)
    (count : k.world.procs.length + v.stage.left = total + 1)
    (asked : k.world.request 0 = some (c, cont)) (permitted : k.permits 0 c r = true) :
    Settled base initial total (k.next 0 c cont r) := by
  have same (notFork : c ≠ .fork) : (k.next 0 c cont r).world.procs.length = k.world.procs.length := World.length_answer notFork
  obtain ⟨after, acts, rest⟩ := alone.doing.asks asked
  have sole := alone.sole
  cases acts with
  | idle idles => exact .inl ⟨v, alone.idles asked idles (rest r _ rfl), by rw [same idles.plain.2.2]; exact count⟩
  | @close t st fd paired spare => cases st <;> first | exact paired.elim | exact sole.elim
  | pipe1 =>
      obtain ⟨t', next⟩ := alone.pipes asked permitted (fun t' piped => rest r _ ⟨_, t', piped, rfl⟩)
        ⟨by simp [Objects.answer], by simp [Objects.answer]⟩ (by simp) (fun h needs => by simpa [Stage.Needs] using needs)
      exact .inl ⟨_, next, by rw [same (by simp)]; exact count⟩
  | @pipe2 t test todo pipe1 =>
      obtain ⟨empty, below⟩ : k.objects.pipes pipe1 = 0 ∧ pipe1 < k.objects.pipeCount := sole
      have different : pipe1 ≠ k.objects.pipeCount := Nat.ne_of_lt below
      obtain ⟨t', next⟩ := alone.pipes asked permitted (fun t' piped => rest r _ ⟨_, t', different, piped, rfl⟩)
        ⟨different, by simp [Objects.answer, different, empty], by simp [Objects.answer]⟩ (by simp)
        (fun h needs => by simp only [Stage.Needs] at needs ⊢; grind)
      exact .inl ⟨_, next, by rw [same (by simp)]; exact count⟩
  | fork =>
      have positive : 0 < r.value := by simpa [Kernel.permits] using permitted
      have holds := alone.forks lengths asked permitted (rest _ _ (.inl ⟨rfl, rfl⟩)) (rest _ _ (.inr ⟨positive, rfl⟩))
      refine .inr ⟨_, holds, ?_⟩
      have last := holds.last
      simp only [Stage.left] at count
      dsimp only at last ⊢
      omega
  | _ => exact sole.elim

/-- The parent has collected the child. -/
theorem Pairing.Holds.ends {t : Table} {st : Stage} (holds : g.Holds base initial k) (clean : ∀ fd x, base.find fd ≠ some (.socket x))
    (asked : k.world.request 0 = some (.wait, cont)) (permitted : k.permits 0 .wait r = true)
    (doing : Doing base k 0 ⟨t, st⟩) (restored : ∀ fd, t.find fd = base.find fd)
    (rest : Follows (Acts base) (cont r) Returned ⟨t, .idle g.link.todo⟩) (late : 2 ≤ g.n) :
    Alone base initial (k.next 0 .wait cont r) ⟨t, .idle g.link.todo⟩ := by
  obtain ⟨-, reaped⟩ := holds.collects asked permitted
  have path : serverPath ∈ (k.next 0 .wait cont r).world.paths ↔ serverPath ∈ k.world.paths := Kernel.path_next rfl
  refine ⟨doing.next asked (by simp) rest rfl (by simp [Stage.Needs]), trivial, fun _ _ => restored, ?_, reaped, ?_, ?_⟩
  · intro fd x found
    exact clean fd x ((restored fd).symm.trans found)
  · intro x named
    rcases holds.sockets with connecting | refused
    · obtain rfl := Option.some_inj.mp ((connecting.present late).2.symm.trans named)
      exact connecting.serverBelow (by omega)
    · exact Nat.lt_of_lt_of_le (refused.stale x named) refused.recent
  · rw [path]
    rcases holds.sockets with connecting | refused
    · exact .inl (connecting.present late).1
    · exact .inl refused.present

theorem Pairing.Holds.step {index : Nat} (holds : g.Holds base initial k) (clean : ∀ fd x, base.find fd ≠ some (.socket x))
    (count : k.world.procs.length + g.link.todo.length = total + 1)
    (asked : k.world.request index = some (c, cont)) (permitted : k.permits index c r = true)
    (possible : k.world.possible index c r.value = true) : Settled base initial total (k.next index c cont r) := by
  have later (notFork : c ≠ .fork) : (k.next index c cont r).world.procs.length + g.link.todo.length = total + 1 := by
    have same : (k.next index c cont r).world.procs.length = k.world.procs.length := World.length_answer notFork
    rw [same]
    exact count
  obtain ⟨link, child, old, n, s, ts, m, cs, tc⟩ := g
  rcases holds.active (by rw [asked]; rfl) with ⟨rfl, stays⟩ | ⟨rfl, stays⟩
  · by_cases plain : c.Plain
    · obtain ⟨n', s', ts', next⟩ := holds.server_step asked stays permitted possible plain
      exact .inr ⟨_, next, later plain.2.2⟩
    · have doing := holds.server stays
      obtain ⟨after, acts, rest⟩ := doing.asks asked
      cases acts with
      | idle idles => exact absurd idles.plain plain
      | leaveServer test =>
          have here := Pairing.serverAt_send test
          rw [here] at asked permitted later ⊢
          exact .inr ⟨_, holds.server_leaves test asked (by simpa [Kernel.permits] using permitted), later (by simp)⟩
      | collectClient test restored =>
          have here := Pairing.serverAt_recv test
          rw [here] at asked permitted later doing ⊢
          exact .inl ⟨_, holds.ends clean asked permitted doing restored (rest r _ rfl) (by simp), later (by simp)⟩
      | _ => exact absurd (by simp [Call.Plain]) plain
  · by_cases plain : c.Plain
    · obtain ⟨m', cs', tc', next⟩ := holds.client_step asked stays permitted plain
      exact .inr ⟨_, next, later plain.2.2⟩
    · have doing := holds.client stays
      obtain ⟨after, acts, rest⟩ := doing.asks asked
      cases acts with
      | idle idles => exact absurd idles.plain plain
      | leaveClient test =>
          have here := Pairing.clientAt_recv test
          rw [here] at asked permitted later ⊢
          exact .inr ⟨_, holds.client_leaves test asked (by simpa [Kernel.permits] using permitted), later (by simp)⟩
      | collectServer test restored =>
          have here := Pairing.clientAt_send test
          have greeted : 4 ≤ n := holds.ordered.greeted (by simp)
          rw [here] at asked permitted later doing ⊢
          exact .inl ⟨_, holds.ends clean asked permitted doing restored (rest r _ rfl) (by dsimp only; omega), later (by simp)⟩
      | _ => exact absurd (by simp [Call.Plain]) plain

theorem lengths_next {index : Nat} (lengths : k.tables.length = k.world.procs.length) (permitted : k.permits index c r = true) :
    (k.next index c cont r).tables.length = (k.next index c cont r).world.procs.length := by
  by_cases fork : c = .fork
  · subst fork
    have positive : 0 < r.value := by simpa [Kernel.permits] using permitted
    simp [Kernel.next, Kernel.answer, World.answer, positive, lengths]
  · have same : (k.next index c cont r).world.procs.length = k.world.procs.length := World.length_answer fork
    rw [same, ← lengths]
    simp [Kernel.next, Kernel.answer, fork]

end Runs

/-! ## Somebody can always move -/

/-- The kernel has a reply to the call. -/
def Kernel.Willing (k : Kernel) (index : Nat) (c : Call) : Prop :=
  ∃ r, k.permits index c r = true ∧ k.world.possible index c r.value = true

def Reply.of (value : Int) : Reply := ⟨value, (0, 0), ⟨0, 0⟩⟩

@[simp] theorem Reply.value_of (value : Int) : (Reply.of value).value = value := rfl

section Willing

variable {k : Kernel} {index : Nat} {c : Call} {fd : Int} {s pipe : Nat}

theorem Kernel.Willing.steps {cont : Reply → Code Unit} (willing : k.Willing index c)
    (asked : k.world.request index = some (c, cont)) : ∃ label next, k.step label = some next := by
  obtain ⟨r, permitted, possible⟩ := willing
  exact ⟨⟨index, r⟩, _, Kernel.step_eq_some.mpr ⟨c, cont, asked, permitted, possible, rfl⟩⟩

theorem Idles.willing (idles : Idles c) : k.Willing index c := by
  cases c with
  | clockGettime => exact ⟨.of 0, by simp [Kernel.permits], rfl⟩
  | send fd size => exact ⟨.of (-1), by simp [Kernel.permits], rfl⟩
  | recv fd size => exact ⟨.of (-1), by simp [Kernel.permits], rfl⟩
  | remove path => exact ⟨.of (if path ∈ k.world.paths then 0 else -1), rfl, by simp [World.possible]⟩
  | _ => exact idles.elim

theorem willing_close : k.Willing index (.close fd) :=
  ⟨.of (if ((k.table index).find fd).isSome then 0 else -1), by simp [Kernel.permits], rfl⟩

theorem willing_socket : k.Willing index .socket := by
  obtain ⟨fd, free⟩ := Table.exists_free (k.table index)
  exact ⟨.of fd, free, rfl⟩

theorem willing_pipe : k.Willing index .pipe := by
  obtain ⟨fd1, free1⟩ := Table.exists_free (k.table index)
  obtain ⟨fd2, free2⟩ := Table.exists_free ((k.table index).install fd1 .file)
  have different : fd2 ≠ fd1 := by
    rintro rfl
    simp [Table.free_iff] at free2
  have free2 : (k.table index).free fd2 = true := by simpa [Table.free_iff, different] using free2
  exact ⟨⟨0, (fd1, fd2), ⟨0, 0⟩⟩, by simp [Kernel.permits, free1, free2, different.symm], rfl⟩

theorem willing_listen : k.Willing index (.listen fd) := by
  cases state : k.state? index fd with
  | none => exact ⟨.of (-1), by simp [Kernel.permits, state], rfl⟩
  | some state' =>
      cases state' with
      | fresh | connected => exact ⟨.of (-1), by simp [Kernel.permits, state], rfl⟩
      | bound | listening => exact ⟨.of 0, by simp [Kernel.permits, state], rfl⟩

theorem willing_bind {path : String} (found : (k.table index).find fd = some (.socket s)) (fresh : k.objects.sockets s = .fresh) :
    k.Willing index (.bind fd path) :=
  ⟨.of (if path ∈ k.world.paths then -1 else 0), by simp [Kernel.permits, Kernel.state_of_find found, fresh],
    by simp [World.possible]⟩

theorem willing_write (found : (k.table index).find fd = some (.writeEnd pipe)) (held : k.held (.readEnd pipe) = true)
    (room : k.objects.pipes pipe < Posix.pipeCapacity) : k.Willing index (.write fd) :=
  ⟨.of 1, by simp [Kernel.permits, found, held, room], rfl⟩

theorem willing_read (found : (k.table index).find fd = some (.readEnd pipe)) (some : 0 < k.objects.pipes pipe) :
    k.Willing index (.read fd) :=
  ⟨.of 1, by simp [Kernel.permits, found, some], rfl⟩

theorem willing_accept_listening {backlog : Nat} (found : (k.table index).find fd = some (.socket s))
    (listening : k.objects.sockets s = .listening backlog) (some : 0 < backlog) : k.Willing index (.accept fd) := by
  obtain ⟨backlog, rfl⟩ := Nat.exists_eq_succ_of_ne_zero (Nat.ne_of_gt some)
  obtain ⟨other, free⟩ := Table.exists_free (k.table index)
  exact ⟨.of other, by simpa [Kernel.permits, Kernel.state_of_find found, listening] using free, rfl⟩

theorem willing_accept_fresh (found : (k.table index).find fd = some (.socket s)) (fresh : k.objects.sockets s = .fresh) :
    k.Willing index (.accept fd) :=
  ⟨.of (-1), by simp [Kernel.permits, Kernel.state_of_find found, fresh], rfl⟩

theorem willing_connect {path : String} (found : (k.table index).find fd = some (.socket s)) (fresh : k.objects.sockets s = .fresh)
    (room : ∀ backlog, k.backlog? path = some backlog → backlog ≤ Kernel.maxBacklog) : k.Willing index (.connect fd path) := by
  cases waits : k.backlog? path with
  | none => exact ⟨.of (-1), by simp [Kernel.permits, Kernel.state_of_find found, fresh, waits], rfl⟩
  | some backlog =>
      exact ⟨.of 0, by simp [Kernel.permits, Kernel.state_of_find found, fresh, waits, room backlog waits], rfl⟩

theorem willing_wait (zombie : (k.world.zombie? index).isSome = true) : k.Willing index .wait :=
  ⟨.of 1, by simp [Kernel.permits, zombie], by simp [World.possible, zombie]⟩

end Willing

namespace Pairing.Holds

variable {base : Table} {initial : List String} {k : Kernel} {link : Link} {child old n s m cs : Nat} {ts tc : Table}

/-- A pipe holds at most the two bytes that are written to it. -/
theorem room {o : Objects} (bytes : Bytes o link n m) :
    o.pipes link.pipe1 < Posix.pipeCapacity ∧ o.pipes link.pipe2 < Posix.pipeCapacity := by
  have second := bytes.second
  unfold Posix.pipeCapacity
  cases test : link.test with
  | send =>
      have first := bytes.send test
      omega
  | recv =>
      have first := bytes.recv test
      omega

/-- Zombies are children that have left. -/
theorem zombie {g : Pairing} (holds : g.Holds base initial k) (left : g.ServerLeft ∨ g.ClientLeft) :
    (k.world.zombie? 0).isSome = true := by
  obtain ⟨p, found, killed⟩ := holds.left left
  have parent := holds.parent p found
  rw [World.zombie?, List.findIdx?_isSome, List.any_eq_true]
  exact ⟨p, List.mem_of_getElem? found, by simp [parent, killed, Proc.request]⟩

/-- The process that listens can move unless it waits for the other one. -/
theorem server_moves (holds : Holds ⟨link, child, old, n, s, ts, m, cs, tc⟩ base initial k) (stays : ¬ (link.test = .send ∧ n = 7))
    (accepts : n = 4 → 3 ≤ m) (answered : n = 5 → 4 ≤ m) (leaves : n = 7 → link.test = .recv ∧ m = 6) :
    ∃ label next, k.step label = some next := by
  have doing := holds.server stays
  have table := doing.table_eq
  have bytes : Bytes k.objects link n m := holds.bytes
  have ordered : Ordered link.test n m := holds.ordered
  have sockets : Connecting initial k n s m cs ∨ Refused k old ts tc := holds.sockets
  dsimp only at doing table
  obtain ⟨idle, -⟩ | ⟨c, cont, asked⟩ := doing.request
  · contradiction
  · obtain ⟨after, acts, -⟩ := doing.asks asked
    refine Kernel.Willing.steps ?_ asked
    cases acts with
    | idle idles => exact idles.willing
    | close => exact willing_close
    | openServer => exact willing_socket
    | @bind _ _ _ fd found =>
        have fresh : k.objects.sockets s = .fresh := by
          rcases sockets with connecting | refused
          · exact connecting.unbound rfl
          · exact (refused.server fd s found).2.2
        exact willing_bind (by rw [table]; exact found) fresh
    | listen => exact willing_listen
    | @greet _ _ _ fd found =>
        have held : k.held (.readEnd link.pipe1) = true := by
          have early := ordered.greeted
          exact (holds.client fun left => absurd left.2 (by change ¬ m = 6; omega)).held (by simp)
            (.inl ⟨rfl, .inl (by change m = 0; omega)⟩)
        exact willing_write (by rw [table]; exact found) held (room bytes).1
    | @accept _ _ _ fd found =>
        rcases sockets with connecting | refused
        · exact willing_accept_listening (by rw [table]; exact found) (connecting.listening (by decide) (Nat.le_refl 4))
            (by have late := accepts rfl; omega)
        · exact willing_accept_fresh (by rw [table]; exact found) (refused.server fd s found).2.2
    | await found => exact willing_read (by rw [table]; exact found) (bytes.await_iff.mpr (answered rfl))
    | part recv found =>
        have held : k.held (.readEnd link.pipe1) = true := by
          have late := ordered.answered (Nat.le_refl 6)
          have parted := ordered.parted recv
          exact (holds.client fun left => absurd left.2 (by change ¬ m = 6; omega)).held (by simp)
            (.inl ⟨rfl, .inr ⟨by change m ≤ 4; omega, recv⟩⟩)
        exact willing_write (by rw [table]; exact found) held (room bytes).1
    | leaveServer => exact ⟨.of 0, by simp [Kernel.permits], by simp [World.possible]⟩
    | collectClient test =>
        rw [Pairing.serverAt_recv test]
        exact willing_wait (holds.zombie (.inr (leaves rfl)))

theorem client_moves (holds : Holds ⟨link, child, old, n, s, ts, m, cs, tc⟩ base initial k) (stays : ¬ (link.test = .recv ∧ m = 6))
    (greeted : m = 0 → 4 ≤ n) (parted : m = 4 → link.test = .recv → 7 ≤ n)
    (leaves : m = 4 → link.test = .send → n = 7) : ∃ label next, k.step label = some next := by
  have doing := holds.client stays
  have table := doing.table_eq
  have bytes : Bytes k.objects link n m := holds.bytes
  have ordered : Ordered link.test n m := holds.ordered
  have sockets : Connecting initial k n s m cs ∨ Refused k old ts tc := holds.sockets
  dsimp only at doing table
  obtain ⟨idle, -⟩ | ⟨c, cont, asked⟩ := doing.request
  · contradiction
  · obtain ⟨after, acts, -⟩ := doing.asks asked
    refine Kernel.Willing.steps ?_ asked
    cases acts with
    | idle idles => exact idles.willing
    | close => exact willing_close
    | hear found => exact willing_read (by rw [table]; exact found) (bytes.hear_iff.mpr (greeted rfl))
    | openClient => exact willing_socket
    | @connect _ _ _ fd found =>
        rw [← table] at found
        rcases sockets with connecting | refused
        · obtain rfl : n = 4 := by
            have early := ordered.greeted (by decide)
            have accepted := connecting.accepted
            omega
          refine willing_connect found (connecting.ready rfl) fun backlog waits => ?_
          obtain ⟨present, named⟩ := connecting.present (by decide)
          have listening : k.objects.sockets s = .listening 0 := connecting.listening (by decide) (by decide)
          simp only [Kernel.backlog?, present, named, listening, if_true, Option.ite_none_right_eq_some, Option.some_inj] at waits
          rw [← waits.2]
          exact Nat.zero_le _
        · refine willing_connect found (refused.client fd cs (by rwa [table] at found)).2.2 fun backlog waits => ?_
          rw [Kernel.backlog?_unheld fun x => holds.not_held_stale refused] at waits
          contradiction
    | answer found =>
        have held : k.held (.readEnd link.pipe2) = true := by
          have early := ordered.answered
          exact (holds.server fun left => absurd left.2 (by change ¬ n = 7; omega)).held (by simp)
            (.inr (.inl ⟨rfl, by change n ≤ 5; omega⟩))
        exact willing_write (by rw [table]; exact found) held (room bytes).2
    | heed recv found =>
        exact willing_read (by rw [table]; exact found)
          ((bytes.heed_iff recv (ordered.greeted (by decide))).mpr (parted rfl recv))
    | leaveClient => exact ⟨.of 0, by simp [Kernel.permits], by simp [World.possible]⟩
    | collectServer test =>
        rw [Pairing.clientAt_send test]
        exact willing_wait (holds.zombie (.inl ⟨test, leaves rfl test⟩))

/-- One of the two can move. -/
theorem moves {g : Pairing} (holds : g.Holds base initial k) : ∃ label next, k.step label = some next := by
  obtain ⟨link, child, old, n, s, ts, m, cs, tc⟩ := g
  obtain ⟨greeted, answered, parted, serverEnd, clientEnd, sendEnd⟩ : Ordered link.test n m := holds.ordered
  cases test : link.test with
  | send =>
      by_cases client : (m = 0 → 4 ≤ n) ∧ (m = 4 → n = 7)
      · exact holds.client_moves (by simp [test]) client.1 (by simp [test]) fun last _ => client.2 last
      · have bound := sendEnd test
        exact holds.server_moves (by omega) (by omega) (by omega) (by omega)
  | recv =>
      by_cases client : m ≠ 6 ∧ (m = 0 → 4 ≤ n) ∧ (m = 4 → 7 ≤ n)
      · exact holds.client_moves (by simp [client.1]) client.2.1 (fun last _ => client.2.2 last) (by simp [test])
      · have late := parted test
        exact holds.server_moves (by simp [test]) (by omega) (by omega) fun last => ⟨test, by omega⟩

end Pairing.Holds

end Oreo.OsEval
