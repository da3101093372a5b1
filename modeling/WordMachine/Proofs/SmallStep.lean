import Mathlib.Algebra.Group.Int.Defs
import Mathlib.Algebra.Group.Nat.Defs
import WordMachine.Program
import WordMachine.Proofs.Effects

namespace WordMachine

namespace Flow

/-- Where control goes, in exact integers. A run counts places with 64 bits. -/
def goal (pc : Int) : Flow → Int
  | .next => pc + 1
  | .branch target => pc + 1 + target.toInt

/-- Places are counted with 64 bits, so a target is exact up to multiples of their number. -/
theorem toInt_target {pc : Place} (h : pc.toNat < 2 ^ 63) (flow : Flow) :
    (flow.target pc).toInt = (flow.goal pc.toNat).bmod (2 ^ 64) := by
  have hpc : pc.toInt = pc.toNat := BitVec.toInt_eq_toNat_of_lt (by omega)
  have hnext : (pc + 1).toInt = ((pc.toNat : Int) + 1).bmod (2 ^ 64) := by
    rw [BitVec.toInt_add, hpc]
    rfl
  cases flow with
  | next => exact hnext
  | branch target =>
    rw [Flow.target, BitVec.toInt_add, hnext, BitVec.toInt_signExtend_of_le (by decide),
      Int.bmod_add_bmod]
    rfl

theorem goal_bounds (pc : Nat) (flow : Flow) :
    -2 ^ 31 ≤ flow.goal pc ∧ flow.goal pc ≤ pc + 2 ^ 31 := by
  cases flow with
  | next =>
    rw [goal]
    omega
  | branch target =>
    have hlow := target.le_two_mul_toInt
    have hhigh := target.two_mul_toInt_lt
    rw [goal]
    omega

theorem successor?_eq_some {pc next : Place} (h : pc.toNat < 2 ^ 63) {flow : Flow}
    (hs : flow.successor? pc = some next) : flow.goal pc.toNat = next.toNat := by
  have htarget := toInt_target h flow
  obtain ⟨hlow, hhigh⟩ := goal_bounds pc.toNat flow
  unfold successor? at hs
  split at hs
  · cases hs
  · rename_i hm
    cases hs
    rw [BitVec.toInt_eq_toNat_of_msb (by simpa using hm), Int.bmod_def] at htarget
    omega

theorem goal_of_successor?_eq_none {pc : Place} (h : pc.toNat < 2 ^ 63) {flow : Flow}
    (hs : flow.successor? pc = none) :
    flow.goal pc.toNat < 0 ∨ 2 ^ 63 ≤ flow.goal pc.toNat := by
  have htarget := toInt_target h flow
  obtain ⟨hlow, hhigh⟩ := goal_bounds pc.toNat flow
  unfold successor? at hs
  split at hs
  · rename_i hm
    rw [BitVec.msb_eq_toInt, decide_eq_true_iff, htarget, Int.bmod_def] at hm
    omega
  · cases hs

end Flow

namespace Program

structure Point where
  pc : Int
  machine : Machine

/-- A statement of the program succeeds and hands control on. -/
inductive Step (p : Program) : Point → Point → Prop
  | execute {n : Nat} {s : Statement} {m : Machine} {flow : Flow} (found : p[n]? = some s)
      (done : (s.execute m).result = .ok flow) :
      Step p ⟨n, m⟩ ⟨flow.goal n, (s.execute m).state⟩

inductive Steps (p : Program) : Nat → Point → Point → Prop
  | zero (a : Point) : Steps p 0 a a
  | succ {k : Nat} {a b c : Point} (first : Step p a b) (rest : Steps p k b c) :
      Steps p (k + 1) a c

def Outside (p : Program) (pc : Int) : Prop := pc < 0 ∨ p.size ≤ pc

/-- From `a` exactly `k` steps lead to the machine `m`, and then the limit is reached or control
is outside the program. -/
def Completes (p : Program) (limit : Nat) (a : Point) (k : Nat) (m : Machine) : Prop :=
  ∃ pc, Steps p k a ⟨pc, m⟩ ∧ (k = limit ∨ k < limit ∧ p.Outside pc)

def FailsAt (p : Program) (a : Point) (e : ExecutionError) : Prop :=
  ∃ (n : Nat) (s : Statement), a.pc = n ∧ p[n]? = some s ∧
    (s.execute a.machine).result = .error e

/-- From `a` fewer steps than the limit lead to the machine `m`, and there the next one fails. -/
def Fails (p : Program) (limit : Nat) (a : Point) (e : ExecutionError) (m : Machine) : Prop :=
  ∃ j pc, j < limit ∧ Steps p j a ⟨pc, m⟩ ∧ p.FailsAt ⟨pc, m⟩ e

variable {p : Program}

theorem Outside.not_found {n : Nat} {s : Statement} (h : p.Outside n) : p[n]? ≠ some s := by
  have hn : p.size ≤ n := by
    unfold Outside at h
    omega
  rw [Array.getElem?_eq_none hn]
  nofun

theorem Step.execution {a b : Point} (h : Step p a b) :
    ∃ (n : Nat) (s : Statement) (flow : Flow), a.pc = n ∧ p[n]? = some s ∧
      (s.execute a.machine).result = .ok flow ∧ b = ⟨flow.goal n, (s.execute a.machine).state⟩ := by
  obtain ⟨found, done⟩ := h
  exact ⟨_, _, _, rfl, found, done, rfl⟩

theorem Step.unique {a b c : Point} (hb : Step p a b) (hc : Step p a c) : b = c := by
  obtain ⟨n, s, flow, hn, hs, he, rfl⟩ := hb.execution
  obtain ⟨n', s', flow', hn', hs', he', rfl⟩ := hc.execution
  obtain rfl := Int.ofNat.inj (hn.symm.trans hn')
  obtain rfl := Option.some.inj (hs.symm.trans hs')
  obtain rfl := Except.ok.inj (he.symm.trans he')
  rfl

theorem Outside.not_step {a b : Point} (h : p.Outside a.pc) : ¬ Step p a b := by
  intro hb
  obtain ⟨n, s, flow, hn, hs, -⟩ := hb.execution
  rw [hn] at h
  exact h.not_found hs

theorem Outside.not_failsAt {a : Point} {e : ExecutionError} (h : p.Outside a.pc) :
    ¬ p.FailsAt a e := by
  rintro ⟨n, s, hn, hs, -⟩
  rw [hn] at h
  exact h.not_found hs

theorem FailsAt.unique {a : Point} {e e' : ExecutionError} (h : p.FailsAt a e)
    (h' : p.FailsAt a e') : e = e' := by
  obtain ⟨n, s, hn, hs, he⟩ := h
  obtain ⟨n', s', hn', hs', he'⟩ := h'
  obtain rfl := Int.ofNat.inj (hn.symm.trans hn')
  obtain rfl := Option.some.inj (hs.symm.trans hs')
  exact Except.error.inj (he.symm.trans he')

theorem FailsAt.not_step {a b : Point} {e : ExecutionError} (h : p.FailsAt a e) :
    ¬ Step p a b := by
  intro hb
  obtain ⟨n, s, hn, hs, he⟩ := h
  obtain ⟨n', s', flow, hn', hs', he', -⟩ := hb.execution
  obtain rfl := Int.ofNat.inj (hn.symm.trans hn')
  obtain rfl := Option.some.inj (hs.symm.trans hs')
  cases he.symm.trans he'

theorem Completes.step {limit k : Nat} {a b : Point} {m : Machine} (hs : Step p a b)
    (h : p.Completes limit b k m) : p.Completes (limit + 1) a (k + 1) m := by
  obtain ⟨pc, hr, he⟩ := h
  refine ⟨pc, .succ hs hr, ?_⟩
  rcases he with he | ⟨hl, ho⟩
  · exact .inl (by omega)
  · exact .inr ⟨by omega, ho⟩

theorem Fails.step {limit : Nat} {a b : Point} {e : ExecutionError} {m : Machine}
    (hs : Step p a b) (h : p.Fails limit b e m) : p.Fails (limit + 1) a e m := by
  obtain ⟨j, pc, hj, hr, he⟩ := h
  exact ⟨j + 1, pc, by omega, .succ hs hr, he⟩

theorem Outside.completes {a : Point} (h : p.Outside a.pc) (limit : Nat) :
    p.Completes limit a 0 a.machine := by
  refine ⟨a.pc, .zero a, ?_⟩
  rcases Nat.eq_zero_or_pos limit with hl | hl
  · exact .inl hl.symm
  · exact .inr ⟨hl, h⟩

theorem Completes.of_zero {k : Nat} {a : Point} {m : Machine} (h : p.Completes 0 a k m) :
    k = 0 ∧ a.machine = m := by
  obtain ⟨pc, hr, he⟩ := h
  cases hr with
  | zero => exact ⟨rfl, rfl⟩
  | succ _ _ => omega

theorem Completes.start {limit k : Nat} {a : Point} {m : Machine}
    (h : p.Completes (limit + 1) a k m) :
    (k = 0 ∧ a.machine = m ∧ p.Outside a.pc) ∨
      ∃ j b, k = j + 1 ∧ Step p a b ∧ p.Completes limit b j m := by
  obtain ⟨pc, hr, he⟩ := h
  cases hr with
  | zero =>
    rcases he with he | ⟨-, ho⟩
    · cases he
    · exact .inl ⟨rfl, rfl, ho⟩
  | @succ j _ b _ first rest =>
    refine .inr ⟨j, b, rfl, first, pc, rest, ?_⟩
    rcases he with he | ⟨hl, ho⟩
    · exact .inl (by omega)
    · exact .inr ⟨by omega, ho⟩

theorem not_fails_zero {a : Point} {e : ExecutionError} {m : Machine} : ¬ p.Fails 0 a e m := by
  rintro ⟨j, pc, hj, -⟩
  cases hj

theorem Fails.start {limit : Nat} {a : Point} {e : ExecutionError} {m : Machine}
    (h : p.Fails (limit + 1) a e m) :
    (a.machine = m ∧ p.FailsAt a e) ∨ ∃ b, Step p a b ∧ p.Fails limit b e m := by
  obtain ⟨j, pc, hj, hr, he⟩ := h
  cases hr with
  | zero => exact .inl ⟨rfl, he⟩
  | @succ i _ b _ first rest => exact .inr ⟨b, first, i, pc, by omega, rest, he⟩

theorem Completes.unique {limit k k' : Nat} {a : Point} {m m' : Machine}
    (h : p.Completes limit a k m) (h' : p.Completes limit a k' m') : k = k' ∧ m = m' := by
  induction limit generalizing a k k' with
  | zero =>
    obtain ⟨rfl, rfl⟩ := h.of_zero
    obtain ⟨rfl, rfl⟩ := h'.of_zero
    exact ⟨rfl, rfl⟩
  | succ limit ih =>
    rcases h.start with ⟨rfl, rfl, ho⟩ | ⟨j, b, rfl, hs, hc⟩
    · rcases h'.start with ⟨rfl, rfl, -⟩ | ⟨j', b', rfl, hs', -⟩
      · exact ⟨rfl, rfl⟩
      · exact absurd hs' ho.not_step
    · rcases h'.start with ⟨rfl, rfl, ho⟩ | ⟨j', b', rfl, hs', hc'⟩
      · exact absurd hs ho.not_step
      · obtain rfl := hs.unique hs'
        obtain ⟨rfl, rfl⟩ := ih hc hc'
        exact ⟨rfl, rfl⟩

theorem Fails.unique {limit : Nat} {a : Point} {e e' : ExecutionError} {m m' : Machine}
    (h : p.Fails limit a e m) (h' : p.Fails limit a e' m') : e = e' ∧ m = m' := by
  induction limit generalizing a with
  | zero => exact absurd h not_fails_zero
  | succ limit ih =>
    rcases h.start with ⟨rfl, he⟩ | ⟨b, hs, hf⟩
    · rcases h'.start with ⟨rfl, he'⟩ | ⟨b', hs', -⟩
      · exact ⟨he.unique he', rfl⟩
      · exact absurd hs' he.not_step
    · rcases h'.start with ⟨rfl, he'⟩ | ⟨b', hs', hf'⟩
      · exact absurd hs he'.not_step
      · obtain rfl := hs.unique hs'
        exact ih hf hf'

theorem Completes.not_fails {limit k : Nat} {a : Point} {e : ExecutionError} {m m' : Machine}
    (h : p.Completes limit a k m) : ¬ p.Fails limit a e m' := by
  intro hf
  induction limit generalizing a k with
  | zero => exact not_fails_zero hf
  | succ limit ih =>
    rcases h.start with ⟨-, -, ho⟩ | ⟨j, b, -, hs, hc⟩
    · rcases hf.start with ⟨-, he⟩ | ⟨b', hs', -⟩
      · exact ho.not_failsAt he
      · exact ho.not_step hs'
    · rcases hf.start with ⟨-, he⟩ | ⟨b', hs', hf'⟩
      · exact he.not_step hs
      · obtain rfl := hs.unique hs'
        exact ih hc hf'

theorem outside_of_at? {pc : Place} (h : p.at? pc = none) : p.Outside pc.toNat :=
  .inr (Int.ofNat_le.mpr (Array.getElem?_eq_none_iff.mp h))

theorem toNat_lt_of_at? {bound : Nat} (hp : p.size < bound) {pc : Place} {s : Statement}
    (h : p.at? pc = some s) : pc.toNat < bound :=
  Nat.lt_trans (Array.getElem?_eq_some_iff.mp h).1 hp

/-- The progress after a statement that succeeds, before control moves. -/
def Progress.executed (r : Progress) (s : Statement) : Progress :=
  { r with
    steps := r.steps + 1
    machine := (s.execute r.machine).state
    log := r.log ++ (s.execute r.machine).log }

theorem resume_outside {r : Progress} (fuel : Nat) (h : p.at? r.pc = none) :
    p.resume fuel r = r.finish := by
  cases fuel with
  | zero => rfl
  | succ fuel => simp only [resume, h]

theorem resume_error {r : Progress} {s : Statement} {e : ExecutionError} (fuel : Nat)
    (hs : p.at? r.pc = some s) (he : (s.execute r.machine).result = .error e) :
    p.resume (fuel + 1) r =
      { result := .error e, state := r.machine
        log := (r.log ++ (s.execute r.machine).log).toList } := by
  obtain ⟨t, ht, -⟩ := Instruction.trap_of_error he
  have hm : (s.execute r.machine).state = r.machine := by
    rw [Statement.execute, Instruction.execute_of_trap ht]
  simp only [resume, hs, he, hm]

theorem resume_last {r : Progress} {s : Statement} {flow : Flow} (fuel : Nat)
    (hs : p.at? r.pc = some s) (he : (s.execute r.machine).result = .ok flow)
    (hn : flow.successor? r.pc = none) :
    p.resume (fuel + 1) r = (r.executed s).finish := by
  simp only [resume, hs, he, hn, Progress.executed]

theorem resume_on {r : Progress} {s : Statement} {flow : Flow} {next : Place} (fuel : Nat)
    (hs : p.at? r.pc = some s) (he : (s.execute r.machine).result = .ok flow)
    (hn : flow.successor? r.pc = some next) :
    p.resume (fuel + 1) r = p.resume fuel { r.executed s with pc := next } := by
  simp only [resume, hs, he, hn, Progress.executed]

/-- What a run does next if its limit allows for it: nothing, as control is outside the program, a
statement that fails, its last statement, or one that it goes on after. -/
inductive Turn (p : Program) (r : Progress) : Prop
  | outside (nothing : p.at? r.pc = none)
  | failed {s : Statement} {e : ExecutionError} (found : p.at? r.pc = some s)
      (failure : (s.execute r.machine).result = .error e)
  | last {s : Statement} {flow : Flow} (found : p.at? r.pc = some s)
      (done : (s.execute r.machine).result = .ok flow) (nowhere : flow.successor? r.pc = none)
  | further {s : Statement} {flow : Flow} {next : Place} (found : p.at? r.pc = some s)
      (done : (s.execute r.machine).result = .ok flow) (place : flow.successor? r.pc = some next)

theorem turn (p : Program) (r : Progress) : p.Turn r := by
  cases hs : p.at? r.pc with
  | none => exact .outside hs
  | some s =>
    cases he : (s.execute r.machine).result with
    | error e => exact .failed hs he
    | ok flow =>
      cases hn : flow.successor? r.pc with
      | none => exact .last hs he hn
      | some next => exact .further hs he hn

def Progress.point (r : Progress) : Point := ⟨r.pc.toNat, r.machine⟩

section Run

variable (hp : p.size < 2 ^ 62) {r : Progress} {s : Statement} {flow : Flow}
  (hs : p.at? r.pc = some s) (he : (s.execute r.machine).result = .ok flow)
include hp hs he

theorem step_last (hn : flow.successor? r.pc = none) :
    ∃ b, Step p r.point b ∧ p.Outside b.pc ∧ b.machine = (r.executed s).machine := by
  refine ⟨⟨flow.goal r.pc.toNat, _⟩, .execute hs he, ?_, rfl⟩
  have hpc := toNat_lt_of_at? (Nat.lt_trans hp (show 2 ^ 62 < 2 ^ 63 by decide)) hs
  rcases Flow.goal_of_successor?_eq_none hpc hn with hneg | hbeyond
  · exact .inl hneg
  · have hsize : (p.size : Int) ≤ flow.goal r.pc.toNat := by omega
    exact .inr hsize

theorem step_on {next : Place} (hn : flow.successor? r.pc = some next) :
    Step p r.point { r.executed s with pc := next : Progress }.point := by
  have h : Step p r.point _ := .execute hs he
  have hpc := toNat_lt_of_at? (Nat.lt_trans hp (show 2 ^ 62 < 2 ^ 63 by decide)) hs
  rw [Flow.successor?_eq_some hpc hn] at h
  exact h

end Run

theorem completes_of_resume (hp : p.size < 2 ^ 62) {fuel count : Nat} {r : Progress}
    (h : (p.resume fuel r).result = .ok count) :
    ∃ k, count = r.steps + k ∧ p.Completes fuel r.point k (p.resume fuel r).state := by
  -- Each step taken uses up one of the limit and adds one to the count.
  induction fuel generalizing r with
  | zero =>
    cases h
    exact ⟨0, rfl, r.pc.toNat, .zero _, .inl rfl⟩
  | succ fuel ih =>
    cases p.turn r with
    | outside nothing =>
      rw [resume_outside _ nothing] at h ⊢
      cases h
      exact ⟨0, rfl, (outside_of_at? nothing).completes (a := r.point) _⟩
    | failed found failure =>
      rw [resume_error _ found failure] at h
      cases h
    | last found done nowhere =>
      rw [resume_last _ found done nowhere] at h ⊢
      cases h
      obtain ⟨b, hb, ho, hm⟩ := step_last hp found done nowhere
      exact ⟨1, rfl, (hm ▸ ho.completes fuel).step hb⟩
    | further found done place =>
      rw [resume_on _ found done place] at h ⊢
      obtain ⟨k, rfl, hc⟩ := ih h
      exact ⟨k + 1, Nat.succ_add_eq_add_succ r.steps k, hc.step (step_on hp found done place)⟩

theorem fails_of_resume (hp : p.size < 2 ^ 62) {fuel : Nat} {r : Progress} {e : ExecutionError}
    (h : (p.resume fuel r).result = .error e) :
    p.Fails fuel r.point e (p.resume fuel r).state := by
  induction fuel generalizing r with
  | zero => cases h
  | succ fuel ih =>
    cases p.turn r with
    | outside nothing =>
      rw [resume_outside _ nothing] at h
      cases h
    | @failed s _ found failure =>
      rw [resume_error _ found failure] at h ⊢
      cases h
      exact ⟨0, r.pc.toNat, Nat.succ_pos _, .zero _, r.pc.toNat, s, rfl, found, failure⟩
    | last found done nowhere =>
      rw [resume_last _ found done nowhere] at h
      cases h
    | further found done place =>
      rw [resume_on _ found done place] at h ⊢
      exact (ih h).step (step_on hp found done place)

/-- Running a program is following its small steps: a run answers with the count of a completed
chain and its machine, or with the error of a failing chain and its machine, and with nothing
else. -/
theorem run_follows_steps {p : Program} (hp : p.size < 2 ^ 62) (m : Machine) (limit : Nat) :
    (∀ k m', (p.run m limit).result = .ok k ∧ (p.run m limit).state = m' ↔
      p.Completes limit ⟨0, m⟩ k m') ∧
    (∀ e m', (p.run m limit).result = .error e ∧ (p.run m limit).state = m' ↔
      p.Fails limit ⟨0, m⟩ e m') := by
  have hok : ∀ k, (p.run m limit).result = .ok k →
      p.Completes limit ⟨0, m⟩ k (p.run m limit).state := by
    intro k hk
    obtain ⟨j, hj, hc⟩ := completes_of_resume (r := { machine := m }) hp hk
    rw [hj, Nat.zero_add]
    exact hc
  have herror : ∀ e, (p.run m limit).result = .error e →
      p.Fails limit ⟨0, m⟩ e (p.run m limit).state := fun e =>
    fails_of_resume (r := { machine := m }) hp
  refine ⟨fun k m' => ⟨?_, fun h => ?_⟩, fun e m' => ⟨?_, fun h => ?_⟩⟩
  · rintro ⟨hk, rfl⟩
    exact hok k hk
  · cases hr : (p.run m limit).result with
    | ok k' =>
      obtain ⟨rfl, hm⟩ := (hok k' hr).unique h
      exact ⟨rfl, hm⟩
    | error e => exact absurd (herror e hr) h.not_fails
  · rintro ⟨he, rfl⟩
    exact herror e he
  · cases hr : (p.run m limit).result with
    | ok k => exact absurd h (hok k hr).not_fails
    | error e' =>
      obtain ⟨rfl, hm⟩ := (herror e' hr).unique h
      exact ⟨rfl, hm⟩

/-- A branch that leads to before the first statement is the one step of its program. -/
theorem run_follows_steps_branch :
    ∃ (p : Program) (m : Machine), p.size < 2 ^ 62 ∧ (p.run m 9).result = .ok 1 ∧
      (p.run m 9).state = m ∧ p.Completes 9 ⟨0, m⟩ 1 m := by
  have hp : 1 < 2 ^ 62 := by decide
  refine ⟨#[⟨.beq, [1, 2, -5]⟩], ⟨.init .hardwired, ⟨0, .little, #[]⟩⟩, hp, by rfl, by rfl, ?_⟩
  exact ((run_follows_steps (by exact hp) _ 9).1 1 _).mp ⟨by rfl, by rfl⟩

end Program

end WordMachine
