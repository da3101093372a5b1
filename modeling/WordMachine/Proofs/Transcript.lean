import WordMachine.Catalog.Standard
import WordMachine.Proofs.InstructionTable
import WordMachine.Proofs.SmallStep

namespace WordMachine

structure Execution where
  statement : Statement
  machine : Machine

namespace Execution

variable (x : Execution)

def outcome : Outcome Machine ExecutionError Flow := x.statement.execute x.machine

def Succeeds : Prop := ∃ flow, x.outcome.result = .ok flow

def Counted : Prop := x.statement.operands.length = x.statement.instruction.arity

/-- The execution succeeds with a result other than 0 for register 0, which is hardwired. -/
structure Discards (value : Word) : Prop where
  succeeds : x.Succeeds
  result : x.statement.instruction.operation.Yields x.machine x.statement.operands value
  target : x.statement.operands.head? = some 0
  hardwired : x.machine.registers.zero = .hardwired
  nonzero : value ≠ 0

inductive Takes : Execution → Word → Prop
  | equal {i : Instruction} {first second target a : Word} {m : Machine}
      (branch : i.operation = .beq) (hfirst : m.Holds first a) (hsecond : m.Holds second a) :
      Takes ⟨⟨i, [first, second, target]⟩, m⟩ target

def start : Event := .executed x.statement.instruction.mnemonic x.statement.operands

/-- All that an execution can report. -/
inductive Reports (x : Execution) : List Event → Prop
  | nothing (miscounted : ¬ x.Counted) : Reports x []
  | plain (counted : x.Counted) (kept : ∀ value, ¬ x.Discards value)
      (straight : ∀ target, ¬ x.Takes target) : Reports x [x.start]
  | discarded {value : Word} (discards : x.Discards value) :
      Reports x [x.start, .writeDiscarded value]
  | branched {target : Word} (takes : x.Takes target) : Reports x [x.start, .branchTaken target]

def effect : Except Trap Effect := x.statement.instruction.effect x.statement.operands x.machine

variable {x}

theorem counted_of_effect {e : Effect} (h : x.effect = .ok e) : x.Counted :=
  Action.length_of_effect h

theorem effect_of_not_counted (h : ¬ x.Counted) : x.effect = .error .operandCount :=
  (Action.effect_eq_operandCount_iff _ _ _).mpr h

theorem startEvents_of_counted (h : x.Counted) :
    x.statement.instruction.startEvents x.statement.operands = [x.start] :=
  if_pos h

theorem succeeds_of_effect {e : Effect} (h : x.effect = .ok e) : x.Succeeds :=
  ⟨e.flow, congrArg Outcome.result (Instruction.execute_of_effect h)⟩

theorem log_of_effect {e : Effect} (h : x.effect = .ok e) :
    x.outcome.log = x.start :: e.events x.machine := by
  rw [outcome, Statement.execute, Instruction.execute_of_effect h,
    startEvents_of_counted (counted_of_effect h)]
  rfl

theorem log_of_trap {t : Trap} (h : x.effect = .error t) :
    x.outcome.log = x.statement.instruction.startEvents x.statement.operands := by
  rw [outcome, Statement.execute, Instruction.execute_of_trap h]

theorem takes_iff {target : Word} : x.Takes target ↔ x.effect = .ok (.branch target) := by
  rw [effect, Instruction.effect, Action.effect_eq_ok_iff]
  constructor
  · rintro ⟨branch, hfirst, hsecond⟩
    rw [branch]
    exact .taken hfirst hsecond
  · obtain ⟨⟨i, operands⟩, m⟩ := x
    intro h
    dsimp only at h
    generalize ha : i.operation.action = action at h
    cases h with
    | taken hfirst hsecond => exact .equal (Operation.action_eq_branch_iff.mp ha) hfirst hsecond

theorem discards_iff {value : Word} :
    x.Discards value ↔
      x.effect = .ok (.set 0 value) ∧ x.machine.registers.zero = .hardwired ∧ value ≠ 0 := by
  constructor
  · rintro ⟨-, hresult, htarget, hhardwired, hnonzero⟩
    obtain ⟨rest, hoperands⟩ := List.head?_eq_some_iff.mp htarget
    rw [hoperands] at hresult
    refine ⟨?_, hhardwired, hnonzero⟩
    rw [effect, Instruction.effect, Action.effect_eq_ok_iff, hoperands]
    exact hresult.settles rfl
  · rintro ⟨heffect, hhardwired, hnonzero⟩
    obtain ⟨d, rest, hoperands, hresult, hnamed⟩ :=
      Operation.yields_of_settles (Action.effect_eq_ok_iff.mp heffect)
    obtain rfl : d = 0 := BitVec.eq_of_toNat_eq hnamed
    exact ⟨succeeds_of_effect heffect, hresult, by rw [hoperands]; rfl, hhardwired, hnonzero⟩

theorem log_of_not_counted (h : ¬ x.Counted) : x.outcome.log = [] := by
  rw [log_of_trap (effect_of_not_counted h)]
  exact if_neg h

theorem Discards.log {value : Word} (h : x.Discards value) :
    x.outcome.log = [x.start, .writeDiscarded value] := by
  obtain ⟨heffect, hhardwired, hnonzero⟩ := discards_iff.mp h
  rw [log_of_effect heffect, Effect.events, Registers.setEvents, Registers.discards, hhardwired,
    if_pos (by simpa using hnonzero)]

theorem Takes.log {target : Word} (h : x.Takes target) :
    x.outcome.log = [x.start, .branchTaken target] :=
  log_of_effect (takes_iff.mp h)

theorem log_of_plain (counted : x.Counted) (kept : ∀ value, ¬ x.Discards value)
    (straight : ∀ target, ¬ x.Takes target) : x.outcome.log = [x.start] := by
  cases he : x.effect with
  | error t => rw [log_of_trap he, startEvents_of_counted counted]
  | ok e =>
    rw [log_of_effect he]
    refine congrArg (x.start :: ·) ?_
    cases e with
    | set r value =>
      refine if_neg fun hlost => kept value (discards_iff.mpr ?_)
      simp only [Registers.discards, Bool.and_eq_true, beq_iff_eq, bne_iff_ne] at hlost
      obtain ⟨⟨rfl, hhardwired⟩, hnonzero⟩ := hlost
      exact ⟨he, hhardwired, hnonzero⟩
    | store offset value => rfl
    | branch target => exact absurd (takes_iff.mpr he) (straight target)
    | pass => rfl

theorem log_eq_iff {log : List Event} : x.outcome.log = log ↔ x.Reports log := by
  constructor
  · rintro rfl
    by_cases hcounted : x.Counted
    · by_cases hdiscards : ∃ value, x.Discards value
      · obtain ⟨value, h⟩ := hdiscards
        rw [h.log]
        exact .discarded h
      · by_cases htakes : ∃ target, x.Takes target
        · obtain ⟨target, h⟩ := htakes
          rw [h.log]
          exact .branched h
        · rw [not_exists] at hdiscards htakes
          rw [log_of_plain hcounted hdiscards htakes]
          exact .plain hcounted hdiscards htakes
    · rw [log_of_not_counted hcounted]
      exact .nothing hcounted
  · intro h
    cases h with
    | nothing miscounted => exact log_of_not_counted miscounted
    | plain counted kept straight => exact log_of_plain counted kept straight
    | discarded discards => exact discards.log
    | branched takes => exact takes.log

theorem Succeeds.counted (h : x.Succeeds) : x.Counted := by
  obtain ⟨flow, hflow⟩ := h
  obtain ⟨e, he, -⟩ := Instruction.execute_eq_ok_iff.mp ⟨hflow, rfl⟩
  exact Action.length_of_effect (Action.effect_eq_ok_iff.mpr he)

theorem counted_iff_of_error {e : ExecutionError} (h : x.outcome.result = .error e) :
    x.Counted ↔ ∀ cause, e ≠ .operandCount cause := by
  obtain ⟨t, ht, rfl⟩ := Instruction.trap_of_error h
  constructor
  · rintro hcounted cause hcause
    cases t with
    | operandCount => exact absurd hcounted ((Action.effect_eq_operandCount_iff _ _ _).mp ht)
    | register cause => cases hcause
    | address cause => cases hcause
  · intro hcause
    by_contra hcounted
    rw [show x.statement.instruction.effect x.statement.operands x.machine = .error .operandCount
      from effect_of_not_counted hcounted] at ht
    cases ht
    exact hcause _ rfl

theorem countP_log_of_counted (h : x.Counted) : x.outcome.log.countP (·.level = .trace) = 1 := by
  generalize hlog : x.outcome.log = log
  cases log_eq_iff.mp hlog with
  | nothing miscounted => exact absurd h miscounted
  | plain => rfl
  | discarded => rfl
  | branched => rfl

theorem countP_flatMap_log {xs : List Execution} (h : ∀ x ∈ xs, x.Counted) :
    (xs.flatMap (·.outcome.log)).countP (·.level = .trace) = xs.length := by
  have hone : xs.map (fun x => x.outcome.log.countP (·.level = .trace)) =
      List.replicate xs.length 1 :=
    List.map_eq_replicate_iff.mpr fun x hx => countP_log_of_counted (h x hx)
  rw [List.countP_flatMap, Function.comp_def, hone, List.sum_replicate_nat, Nat.mul_one]

theorem level_of_error {e : ExecutionError} (h : x.outcome.result = .error e) {event : Event}
    (hevent : event ∈ x.outcome.log) : event.level = .trace := by
  obtain ⟨t, ht, -⟩ := Instruction.trap_of_error h
  rw [log_of_trap ht, Instruction.startEvents] at hevent
  split at hevent
  · rw [List.mem_singleton.mp hevent]
    rfl
  · cases hevent

end Execution

namespace Program

/-- The executions that a run makes from a place on, in their order. -/
def executions (p : Program) : Nat → Place → Machine → List Execution
  | 0, _, _ => []
  | fuel + 1, pc, m =>
    match p.at? pc with
    | none => []
    | some statement =>
      ⟨statement, m⟩ ::
        match (statement.execute m).result with
        | .error _ => []
        | .ok flow =>
          match flow.successor? pc with
          | none => []
          | some next => p.executions fuel next (statement.execute m).state

variable {p : Program} {r : Progress}

theorem executions_outside (fuel : Nat) (h : p.at? r.pc = none) :
    p.executions fuel r.pc r.machine = [] := by
  cases fuel with
  | zero => rfl
  | succ fuel => simp only [executions, h]

section Turn

variable {s : Statement} (fuel : Nat) (hs : p.at? r.pc = some s)
include hs

theorem executions_failed {e : ExecutionError} (he : (s.execute r.machine).result = .error e) :
    p.executions (fuel + 1) r.pc r.machine = [⟨s, r.machine⟩] := by
  simp only [executions, hs, he]

theorem executions_last {flow : Flow} (he : (s.execute r.machine).result = .ok flow)
    (hn : flow.successor? r.pc = none) :
    p.executions (fuel + 1) r.pc r.machine = [⟨s, r.machine⟩] := by
  simp only [executions, hs, he, hn]

theorem executions_on {flow : Flow} {next : Place}
    (he : (s.execute r.machine).result = .ok flow) (hn : flow.successor? r.pc = some next) :
    p.executions (fuel + 1) r.pc r.machine =
      ⟨s, r.machine⟩ :: p.executions fuel next (r.executed s).machine := by
  simp only [executions, hs, he, hn, Progress.executed]

end Turn

theorem resume_log (fuel : Nat) :
    (p.resume fuel r).log =
      r.log.toList ++ (p.executions fuel r.pc r.machine).flatMap (·.outcome.log) := by
  -- Each turn adds one execution and what it reports.
  induction fuel generalizing r with
  | zero => simp [resume, Progress.finish, executions]
  | succ fuel ih =>
    cases p.turn r with
    | outside nothing =>
      rw [resume_outside _ nothing, executions_outside _ nothing]
      simp [Progress.finish]
    | failed found failure =>
      rw [resume_error _ found failure, executions_failed _ found failure]
      simp [Execution.outcome]
    | last found done nowhere =>
      rw [resume_last _ found done nowhere, executions_last _ found done nowhere]
      simp [Progress.finish, Progress.executed, Execution.outcome]
    | further found done place =>
      rw [resume_on _ found done place, executions_on _ found done place, ih]
      simp [Progress.executed, Execution.outcome]

theorem executions_of_ok {fuel count : Nat} (h : (p.resume fuel r).result = .ok count) :
    count = r.steps + (p.executions fuel r.pc r.machine).length ∧
      ∀ x ∈ p.executions fuel r.pc r.machine, x.Succeeds := by
  induction fuel generalizing r with
  | zero =>
    cases h
    exact ⟨rfl, List.forall_mem_nil _⟩
  | succ fuel ih =>
    cases p.turn r with
    | outside nothing =>
      rw [resume_outside _ nothing] at h
      rw [executions_outside _ nothing]
      cases h
      exact ⟨rfl, List.forall_mem_nil _⟩
    | failed found failure =>
      rw [resume_error _ found failure] at h
      cases h
    | last found done nowhere =>
      rw [resume_last _ found done nowhere] at h
      rw [executions_last _ found done nowhere]
      cases h
      exact ⟨rfl, List.forall_mem_singleton.mpr ⟨_, done⟩⟩
    | further found done place =>
      rw [resume_on _ found done place] at h
      rw [executions_on _ found done place]
      obtain ⟨rfl, hall⟩ := ih h
      exact ⟨Nat.succ_add_eq_add_succ _ _, List.forall_mem_cons.mpr ⟨⟨_, done⟩, hall⟩⟩

/-- In a run that fails the last execution is the one that failed. -/
theorem executions_of_error {fuel : Nat} {e : ExecutionError}
    (h : (p.resume fuel r).result = .error e) :
    ∃ done last, p.executions fuel r.pc r.machine = done ++ [last] ∧
      (∀ x ∈ done, x.Succeeds) ∧ last.outcome.result = .error e := by
  induction fuel generalizing r with
  | zero => cases h
  | succ fuel ih =>
    cases p.turn r with
    | outside nothing =>
      rw [resume_outside _ nothing] at h
      cases h
    | failed found failure =>
      rw [resume_error _ found failure] at h
      rw [executions_failed _ found failure]
      cases h
      exact ⟨[], _, rfl, List.forall_mem_nil _, failure⟩
    | last found done nowhere =>
      rw [resume_last _ found done nowhere] at h
      cases h
    | further found done place =>
      rw [resume_on _ found done place] at h
      rw [executions_on _ found done place]
      obtain ⟨before, last, hmade, hall, hlast⟩ := ih h
      rw [hmade]
      exact ⟨_ :: before, last, rfl, List.forall_mem_cons.mpr ⟨⟨_, done⟩, hall⟩, hlast⟩

/-- After so many small steps control is at a statement, and this is the execution of it. -/
def ExecutesAfter (p : Program) (j : Nat) (a : Point) (x : Execution) : Prop :=
  ∃ n : Nat, Steps p j a ⟨n, x.machine⟩ ∧ p[n]? = some x.statement

variable {j : Nat} {a b : Point} {x : Execution}

theorem executesAfter_zero_iff {s : Statement} (hs : p.at? r.pc = some s) :
    p.ExecutesAfter 0 r.point x ↔ ⟨s, r.machine⟩ = x := by
  constructor
  · rintro ⟨n, hsteps, hn⟩
    generalize hc : (⟨n, x.machine⟩ : Point) = c at hsteps
    cases hsteps with
    | zero =>
      obtain ⟨hpc, hm⟩ := Point.mk.inj hc
      obtain rfl := Int.ofNat.inj hpc
      rw [Option.some.inj (hs.symm.trans hn), ← hm]
  · rintro rfl
    exact ⟨r.pc.toNat, .zero r.point, hs⟩

theorem Step.executesAfter_iff (h : Step p a b) :
    p.ExecutesAfter (j + 1) a x ↔ p.ExecutesAfter j b x := by
  constructor
  · rintro ⟨n, hsteps, hn⟩
    cases hsteps with
    | succ first rest =>
      obtain rfl := h.unique first
      exact ⟨n, rest, hn⟩
  · rintro ⟨n, hsteps, hn⟩
    exact ⟨n, .succ h hsteps, hn⟩

theorem not_executesAfter_succ (h : ∀ b, ¬ Step p a b) : ¬ p.ExecutesAfter (j + 1) a x := by
  rintro ⟨n, hsteps, -⟩
  cases hsteps with
  | succ first rest => exact h _ first

theorem Outside.not_executesAfter (h : p.Outside a.pc) : ¬ p.ExecutesAfter j a x := by
  cases j with
  | zero =>
    rintro ⟨n, hsteps, hn⟩
    cases hsteps
    exact h.not_found hn
  | succ j => exact not_executesAfter_succ fun b => h.not_step

/-- The executions of a run, counted from 0, are those that the small-step chain comes to. -/
theorem getElem?_executions (hp : p.size < 2 ^ 62) {fuel : Nat} :
    (p.executions fuel r.pc r.machine)[j]? = some x ↔
      j < fuel ∧ p.ExecutesAfter j r.point x := by
  induction fuel generalizing r j with
  | zero => simp [executions]
  | succ fuel ih =>
    cases p.turn r with
    | outside nothing =>
      have hout : p.Outside r.point.pc := outside_of_at? nothing
      rw [executions_outside _ nothing]
      simp [hout.not_executesAfter]
    | @failed s e found failure =>
      rw [executions_failed _ found failure]
      cases j with
      | zero => simp [executesAfter_zero_iff found]
      | succ j =>
        have hfails : p.FailsAt r.point e := ⟨_, s, rfl, found, failure⟩
        simp [not_executesAfter_succ fun b => hfails.not_step]
    | last found done nowhere =>
      obtain ⟨b, hb, hout, -⟩ := step_last hp found done nowhere
      rw [executions_last _ found done nowhere]
      cases j with
      | zero => simp [executesAfter_zero_iff found]
      | succ j => simp [hb.executesAfter_iff, hout.not_executesAfter]
    | @further s _ next found done place =>
      have hb := step_on hp found done place
      rw [executions_on _ found done place]
      cases j with
      | zero => simp [executesAfter_zero_iff found]
      | succ j =>
        rw [List.getElem?_cons_succ, hb.executesAfter_iff, Nat.add_lt_add_iff_right]
        exact ih (r := { r.executed s with pc := next })

/-- The log of a run is what its executions report, one after the other, and those are the ones that
the small-step chain comes to within the limit. A run that answers has as many traces as steps; one
that fails has one more, unless the number of operands was wrong. -/
theorem run_log_transcribes (p : Program) (m : Machine) (limit : Nat) :
    let made := p.executions limit 0 m
    let log := (p.run m limit).log
    (p.size < 2 ^ 62 → ∀ j x, made[j]? = some x ↔ j < limit ∧ p.ExecutesAfter j ⟨0, m⟩ x) ∧
    log = made.flatMap (·.outcome.log) ∧
    (∀ (x : Execution) (events : List Event), x.outcome.log = events ↔ x.Reports events) ∧
    (∀ (x : Execution) (e : ExecutionError), x.outcome.result = .error e →
      ∀ event ∈ x.outcome.log, event.level = .trace) ∧
    (∀ k, (p.run m limit).result = .ok k →
      made.length = k ∧ (∀ x ∈ made, x.Succeeds) ∧ log.countP (·.level = .trace) = k) ∧
    ∀ e, (p.run m limit).result = .error e →
      ∃ done last, made = done ++ [last] ∧ (∀ x ∈ done, x.Succeeds) ∧
        last.outcome.result = .error e ∧
        ((∀ cause, e ≠ .operandCount cause) →
          log.countP (·.level = .trace) = done.length + 1) ∧
        ((∃ cause, e = .operandCount cause) → log.countP (·.level = .trace) = done.length) := by
  intro made log
  have hlog : log = made.flatMap (·.outcome.log) :=
    (resume_log (r := { machine := m }) limit).trans (List.nil_append _)
  refine ⟨fun hp j x => getElem?_executions (r := { machine := m }) hp, hlog,
    fun _ _ => Execution.log_eq_iff, fun _ _ h _ => Execution.level_of_error h, fun k hk => ?_,
    fun e he => ?_⟩
  · obtain ⟨hcount, hall⟩ := executions_of_ok (r := { machine := m }) hk
    have hlength : made.length = k := (hcount.trans (Nat.zero_add _)).symm
    refine ⟨hlength, hall, ?_⟩
    rw [hlog, Execution.countP_flatMap_log fun x hx => (hall x hx).counted, hlength]
  · obtain ⟨done, last, hmade, hall, hlast⟩ := executions_of_error (r := { machine := m }) he
    have hcount : log.countP (·.level = .trace) =
        done.length + last.outcome.log.countP (·.level = .trace) := by
      rw [hlog, show made = done ++ [last] from hmade, List.flatMap_append, List.countP_append,
        Execution.countP_flatMap_log fun x hx => (hall x hx).counted, List.flatMap_singleton]
    refine ⟨done, last, hmade, hall, hlast, fun hcause => ?_, fun hcause => ?_⟩
    · have hcounted : last.Counted := (Execution.counted_iff_of_error hlast).mpr hcause
      rw [hcount, Execution.countP_log_of_counted hcounted]
    · have hmiscounted : ¬ last.Counted := by
        intro hcounted
        obtain ⟨cause, rfl⟩ := hcause
        exact (Execution.counted_iff_of_error hlast).mp hcounted cause rfl
      rw [hcount, Execution.log_of_not_counted hmiscounted, List.countP_nil, Nat.add_zero]

/-- A value that is discarded, a branch that is taken, and an operand list that is too short. -/
theorem run_log_transcribes_miscounted :
    ∃ (p : Program) (m : Machine), p.size < 2 ^ 62 ∧
      (p.run m 9).result = .error (.operandCount ⟨"ADD", 3, 1⟩) ∧
      (p.run m 9).log = [.executed "GRUB" [0, 0x107], .writeDiscarded 7, .executed "BEQ" [1, 1, 0],
        .branchTaken 0] ∧
      (p.executions 9 0 m).length = 3 ∧ ∃ x, p.ExecutesAfter 2 ⟨0, m⟩ x := by
  let add : Instruction := ⟨Catalog.standardDefinitions[0],
    ⟨0xfc0007ff, 1, #v[some ⟨11, 5⟩, some ⟨21, 5⟩, some ⟨16, 5⟩]⟩⟩
  let p : Program := #[⟨.grub, [0, 0x107]⟩, ⟨.beq, [1, 1, 0]⟩, ⟨add, [1]⟩]
  let m : Machine := ⟨.init .hardwired, ⟨0, .little, #[]⟩⟩
  have hp : p.size < 2 ^ 62 := by decide
  have hresult : (p.run m 9).result = .error (.operandCount ⟨"ADD", 3, 1⟩) := by
    unfold p m add
    rfl
  have hlog : (p.run m 9).log = [.executed "GRUB" [0, 0x107], .writeDiscarded 7,
      .executed "BEQ" [1, 1, 0], .branchTaken 0] := by
    unfold p m add
    rfl
  obtain ⟨hchain, -, -, -, -, hfails⟩ := run_log_transcribes p m 9
  obtain ⟨done, last, hmade, -, -, -, hcount⟩ := hfails _ hresult
  have hlength : (p.executions 9 0 m).length = 3 := by
    have hdone := hcount ⟨_, rfl⟩
    rw [hlog] at hdone
    rw [hmade, List.length_append, ← hdone]
    rfl
  have hlast := List.getElem?_eq_getElem (l := p.executions 9 0 m) (i := 2) (by omega)
  exact ⟨p, m, hp, hresult, hlog, hlength, _, ((hchain hp 2 _).mp hlast).2⟩

end Program

end WordMachine
