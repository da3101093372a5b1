import WordMachine.Proofs.InstructionTable
import WordMachine.Proofs.SmallStep

namespace WordMachine

namespace Flow

theorem goal_add (offset pc : Nat) (flow : Flow) :
    flow.goal ((offset + pc : Nat) : Int) = offset + flow.goal pc := by
  cases flow <;> simp only [goal] <;> omega

end Flow

/-- The target that a branch names. One with a wrong number of operands fails and names none. -/
def Statement.branchTarget? (s : Statement) : Option Word :=
  match s.instruction.operation, s.operands with
  | .beq, [_, _, target] => some target
  | _, _ => none

theorem Statement.branchTarget?_of_execute {s : Statement} {m : Machine} {target : Word}
    (h : (s.execute m).result = .ok (.branch target)) : s.branchTarget? = some target := by
  obtain ⟨e, he, hflow, -⟩ := Instruction.execute_eq_ok_iff.mp ⟨h, rfl⟩
  cases e with
  | branch taken =>
    cases hflow
    generalize ha : s.instruction.operation.action = action at he
    generalize ho : s.operands = operands at he
    cases he with
    | taken hfirst hsecond =>
      rw [branchTarget?, Operation.action_eq_branch_iff.mp ha, ho]
  | set r value => cases hflow
  | store offset value => cases hflow
  | pass => cases hflow

namespace Program

variable {p q : Program}

/-- No branch leads to before the first statement. -/
def ClosedBelow (p : Program) : Prop :=
  ∀ ⦃n : Nat⦄ ⦃s : Statement⦄ ⦃target : Word⦄, p[n]? = some s → s.branchTarget? = some target →
    0 ≤ (n : Int) + 1 + target.toInt

/-- No branch leads further than to the place after the last statement. -/
def ClosedAbove (p : Program) : Prop :=
  ∀ ⦃n : Nat⦄ ⦃s : Statement⦄ ⦃target : Word⦄, p[n]? = some s → s.branchTarget? = some target →
    (n : Int) + 1 + target.toInt ≤ p.size

section Goal

variable {n : Nat} {s : Statement} {m : Machine} {flow : Flow} (hs : p[n]? = some s)
  (he : (s.execute m).result = .ok flow)
include hs he

theorem ClosedBelow.goal_nonneg (h : p.ClosedBelow) : 0 ≤ flow.goal n := by
  cases flow with
  | next =>
    rw [Flow.goal]
    omega
  | branch target => exact h hs (Statement.branchTarget?_of_execute he)

theorem ClosedAbove.goal_le (h : p.ClosedAbove) : flow.goal n ≤ p.size := by
  cases flow with
  | next =>
    have := (Array.getElem?_eq_some_iff.mp hs).1
    rw [Flow.goal]
    omega
  | branch target => exact h hs (Statement.branchTarget?_of_execute he)

end Goal

def Progress.movedTo (r : Progress) (n : Nat) : Progress := { r with pc := .ofNat 64 n }

theorem Progress.toNat_pc_movedTo (r : Progress) {n : Nat} (h : n < 2 ^ 63) :
    (r.movedTo n).pc.toNat = n := by
  rw [movedTo, BitVec.toNat_ofNat]
  omega

section Move

variable {r : Progress} {s : Statement} {flow : Flow} (fuel : Nat) (hp : p.size < 2 ^ 63)
  (hs : p.at? r.pc = some s) (he : (s.execute r.machine).result = .ok flow)
include hp hs he

theorem resume_movedTo {n : Nat} (hn : n < 2 ^ 63) (hg : flow.goal r.pc.toNat = n) :
    p.resume (fuel + 1) r = p.resume fuel ((r.executed s).movedTo n) := by
  have hpc := toNat_lt_of_at? hp hs
  cases hnext : flow.successor? r.pc with
  | none =>
    have := Flow.goal_of_successor?_eq_none hpc hnext
    omega
  | some next =>
    have hgoal := Flow.successor?_eq_some hpc hnext
    have hplace : next = .ofNat 64 n := by
      apply BitVec.eq_of_toNat_eq
      rw [BitVec.toNat_ofNat]
      omega
    rw [resume_on _ hs he hnext, hplace]
    rfl

theorem resume_leaves (hg : p.Outside (flow.goal r.pc.toNat)) :
    p.resume (fuel + 1) r = (r.executed s).finish := by
  cases hnext : flow.successor? r.pc with
  | none => exact resume_last _ hs he hnext
  | some next =>
    have hgoal := Flow.successor?_eq_some (toNat_lt_of_at? hp hs) hnext
    have hout : p.at? next = none := by
      apply Array.getElem?_eq_none
      unfold Outside at hg
      omega
    rw [resume_on _ hs he hnext, resume_outside _ hout]
    rfl

end Move

theorem at?_append_left {pc : Place} {s : Statement} (h : p.at? pc = some s) :
    (p ++ q).at? pc = some s := by
  rw [at?, Array.getElem?_append_left (Array.getElem?_eq_some_iff.mp h).1]
  exact h

/-- A run of the first program fails within the longer one too, or it goes on where the second
begins, with what is left of the limit. -/
theorem resume_append_left (below : p.ClosedBelow) (above : p.ClosedAbove)
    (fits : p.size + q.size < 2 ^ 63) (fuel : Nat) {r : Progress} (hr : r.pc.toNat ≤ p.size) :
    (∃ e, (p.resume fuel r).result = .error e ∧ (p ++ q).resume fuel r = p.resume fuel r) ∨
      ∃ (k : Nat) (r' : Progress), r'.steps = r.steps + k ∧ p.resume fuel r = r'.finish ∧
        (p ++ q).resume fuel r = (p ++ q).resume (fuel - k) (r'.movedTo p.size) := by
  have hp : p.size < 2 ^ 63 := by omega
  have hpq : (p ++ q).size < 2 ^ 63 := by rwa [Array.size_append]
  induction fuel generalizing r with
  | zero => exact .inr ⟨0, r, rfl, rfl, rfl⟩
  | succ fuel ih =>
    cases hs : p.at? r.pc with
    | none =>
      have hend : r.movedTo p.size = r := by
        have hge : p.size ≤ r.pc.toNat := Array.getElem?_eq_none_iff.mp hs
        rw [Progress.movedTo, ← Nat.le_antisymm hr hge, BitVec.ofNat_toNat, BitVec.setWidth_eq]
      exact .inr ⟨0, r, rfl, resume_outside _ hs, by rw [hend]; rfl⟩
    | some s =>
      have hs' := at?_append_left (q := q) hs
      cases he : (s.execute r.machine).result with
      | error e =>
        refine .inl ⟨e, ?_, ?_⟩
        · rw [resume_error _ hs he]
        · rw [resume_error _ hs he, resume_error _ hs' he]
      | ok flow =>
        obtain ⟨n, hn⟩ := Int.eq_ofNat_of_zero_le (below.goal_nonneg hs he)
        have hle : n ≤ p.size := by
          have := above.goal_le hs he
          omega
        have hlt : n < 2 ^ 63 := by omega
        rw [resume_movedTo fuel hp hs he hlt hn, resume_movedTo fuel hpq hs' he hlt hn]
        rcases ih (r := (r.executed s).movedTo n)
          (by rw [Progress.toNat_pc_movedTo _ hlt]; exact hle) with ⟨e, herror⟩ | ⟨k, r', hk, hgo⟩
        · exact .inl ⟨e, herror⟩
        · refine .inr ⟨k + 1, r', ?_, ?_⟩
          · rw [hk]
            simp only [Progress.movedTo, Progress.executed]
            omega
          · rw [Nat.add_sub_add_right]
            exact hgo

/-- A run as it goes on after another one, whose program stands before its own. -/
def Progress.after (done : Progress) (offset : Nat) (r : Progress) : Progress where
  pc := .ofNat 64 (offset + r.pc.toNat)
  steps := done.steps + r.steps
  machine := r.machine
  log := done.log ++ r.log

/-- The outcome of two runs one after the other, from that of the second. -/
def Progress.andThen (done : Progress) (rest : Outcome Machine ExecutionError Nat) :
    Outcome Machine ExecutionError Nat where
  result := (done.steps + ·) <$> rest.result
  state := rest.state
  log := done.log.toList ++ rest.log

namespace Progress

variable (done : Progress) (offset : Nat) (r : Progress)

theorem after_movedTo {n : Nat} (h : n < 2 ^ 63) :
    done.after offset (r.movedTo n) = (done.after offset r).movedTo (offset + n) := by
  simp only [after, toNat_pc_movedTo r h]
  rfl

theorem after_executed (s : Statement) :
    (done.after offset r).executed s =
      { done.after offset (r.executed s) with pc := (done.after offset r).pc } := by
  have hlog : done.log ++ r.log ++ (s.execute r.machine).log =
      done.log ++ (r.log ++ (s.execute r.machine).log) := by
    apply Array.toList_inj.mp
    simp
  simp only [after, executed, hlog, Nat.add_assoc]

theorem finish_after : (done.after offset r).finish = done.andThen r.finish := by
  simp [finish, after, andThen]

end Progress

theorem at?_after (done : Progress) {r : Progress} (h : p.size + r.pc.toNat < 2 ^ 64) :
    (p ++ q).at? (done.after p.size r).pc = q.at? r.pc := by
  rw [at?, Progress.after, BitVec.toNat_ofNat, Nat.mod_eq_of_lt h,
    Array.getElem?_append_right (Nat.le_add_right _ _), Nat.add_sub_cancel_left, at?]

/-- The second program runs as by itself, behind the statements of the first and the count and the
log of what they have done. -/
theorem resume_append_right (below : q.ClosedBelow) (fits : p.size + q.size < 2 ^ 63)
    (done : Progress) (fuel : Nat) {r : Progress} (hr : r.pc.toNat ≤ q.size) :
    (p ++ q).resume fuel (done.after p.size r) = done.andThen (q.resume fuel r) := by
  have hq : q.size < 2 ^ 63 := by omega
  have hpq : (p ++ q).size < 2 ^ 63 := by rwa [Array.size_append]
  induction fuel generalizing r with
  | zero => exact done.finish_after p.size r
  | succ fuel ih =>
    have hat := at?_after (p := p) (q := q) (r := r) done (by omega)
    cases hs : q.at? r.pc with
    | none =>
      rw [resume_outside _ hs, resume_outside _ (hat.trans hs)]
      exact done.finish_after p.size r
    | some s =>
      have hs' := hat.trans hs
      cases he : (s.execute r.machine).result with
      | error e =>
        rw [resume_error _ hs he, resume_error _ hs' he]
        simp [Progress.after, Progress.andThen]
      | ok flow =>
        obtain ⟨n, hn⟩ := Int.eq_ofNat_of_zero_le (below.goal_nonneg hs he)
        have hn' : flow.goal (done.after p.size r).pc.toNat = (p.size + n : Nat) := by
          rw [Progress.after, BitVec.toNat_ofNat, Nat.mod_eq_of_lt (by omega), Flow.goal_add, hn]
          rfl
        rcases Nat.lt_or_ge q.size n with hout | hin
        · have hout' : (p ++ q).size ≤ p.size + n := by
            rw [Array.size_append]
            omega
          rw [resume_leaves fuel hq hs he (.inr (by omega)),
            resume_leaves (r := done.after p.size r) fuel hpq hs' he (.inr (by omega)),
            Progress.after_executed]
          exact done.finish_after p.size (r.executed s)
        · have hlt : n < 2 ^ 63 := by omega
          have hpc : ((r.executed s).movedTo n).pc.toNat ≤ q.size := by
            rwa [Progress.toNat_pc_movedTo _ hlt]
          have hgo := ih hpc
          rw [Progress.after_movedTo _ _ _ hlt] at hgo
          rw [resume_movedTo fuel hq hs he hlt hn,
            resume_movedTo fuel hpq hs' he (by omega) hn', Progress.after_executed]
          exact hgo

/-- A program left only at its end hands over to one that does not jump back out of itself. A
failure of the first is all, otherwise the second goes on with its machine, its count and the rest
of the limit. More statements than `fits` allows have no room in an address space of 64 bits. -/
theorem run_append {p q : Program} (fits : p.size + q.size < 2 ^ 63) (below : p.ClosedBelow)
    (above : p.ClosedAbove) (below' : q.ClosedBelow) (m : Machine) (limit : Nat) :
    (∀ e, (p.run m limit).result = .error e → (p ++ q).run m limit = p.run m limit) ∧
    ∀ k, (p.run m limit).result = .ok k →
      let rest := q.run (p.run m limit).state (limit - k)
      (p ++ q).run m limit =
        { result := (k + ·) <$> rest.result
          state := rest.state
          log := (p.run m limit).log ++ rest.log } := by
  rcases resume_append_left (r := { machine := m }) below above fits limit (Nat.zero_le _)
    with ⟨e, herror, hsame⟩ | ⟨k, r', hk, hfinish, hgo⟩
  · refine ⟨fun e' _ => hsame, fun k hok => ?_⟩
    rw [run, herror] at hok
    cases hok
  · refine ⟨fun e herror => ?_, fun k' hok => ?_⟩
    · rw [run, hfinish] at herror
      cases herror
    · obtain rfl : r'.steps = k := hk.trans (Nat.zero_add k)
      have hstart : r'.movedTo p.size = r'.after p.size { machine := r'.machine } := by
        simp [Progress.movedTo, Progress.after]
      have hrest := resume_append_right (r := { machine := r'.machine }) below' fits r'
        (limit - r'.steps) (Nat.zero_le _)
      have hrun : p.run m limit = r'.finish := hfinish
      rw [hrun] at hok ⊢
      cases hok
      calc (p ++ q).run m limit
        _ = (p ++ q).resume (limit - r'.steps) (r'.movedTo p.size) := hgo
        _ = (p ++ q).resume (limit - r'.steps) (r'.after p.size { machine := r'.machine }) := by
          rw [hstart]
        _ = _ := hrest

/-- The first program skips its second statement and hands over, the second one branches to its own
beginning for as long as the limit allows. -/
theorem run_append_loop :
    ∃ (p q : Program) (m : Machine), p.size + q.size < 2 ^ 63 ∧ p.ClosedBelow ∧ p.ClosedAbove ∧
      q.ClosedBelow ∧ (p.run m 6).result = .ok 1 ∧ (q.run (p.run m 6).state 5).result = .ok 5 ∧
      ((p ++ q).run m 6).result = .ok 6 := by
  let p : Program := #[⟨.beq, [0, 0, 1]⟩, ⟨.beq, [0, 0, 0]⟩]
  let q : Program := #[⟨.beq, [3, 3, -1]⟩]
  let m : Machine := ⟨.init .hardwired, ⟨0, .little, #[]⟩⟩
  have below : p.ClosedBelow := by
    intro n s target hs ht
    match n with
    | 0 => cases hs; cases ht; decide
    | 1 => cases hs; cases ht; decide
    | n + 2 => cases hs
  have above : p.ClosedAbove := by
    intro n s target hs ht
    match n with
    | 0 => cases hs; cases ht; decide
    | 1 => cases hs; cases ht; decide
    | n + 2 => cases hs
  have below' : q.ClosedBelow := by
    intro n s target hs ht
    match n with
    | 0 => cases hs; cases ht; decide
    | n + 1 => cases hs
  have hfirst : (p.run m 6).result = .ok 1 := by
    unfold p m
    rfl
  have hrest : (q.run (p.run m 6).state 5).result = .ok 5 := by
    unfold p q m
    rfl
  refine ⟨p, q, m, by decide, below, above, below', hfirst, hrest, ?_⟩
  rw [(run_append (by decide) below above below' m 6).2 1 hfirst]
  exact congrArg ((1 + ·) <$> ·) hrest

end Program

end WordMachine
