import WordMachine.Proofs.Sessions
import WordMachine.Proofs.SmallStep

namespace WordMachine

/-- Two outcomes that differ at most in the states they leave, and those are related. -/
structure Outcome.Agree {σ ε α : Type} (R : σ → σ → Prop) (o o' : Outcome σ ε α) : Prop where
  result : o.result = o'.result
  log : o.log = o'.log
  state : R o.state o'.state

/-- Two outcomes that agree, unless the first is a failure for an excepted cause. -/
def Outcome.AgreeUnless {σ ε α : Type} (excepted : ε → Prop) (R : σ → σ → Prop)
    (o o' : Outcome σ ε α) : Prop :=
  (∃ e, excepted e ∧ o.result = .error e) ∨ Agree R o o'

theorem Outcome.AgreeUnless.agree {σ ε α : Type} {R : σ → σ → Prop} {o o' : Outcome σ ε α}
    {excepted : ε → Prop} (h : AgreeUnless excepted R o o')
    (hnot : ∀ e, o.result = .error e → ¬ excepted e) : Agree R o o' := by
  rcases h with ⟨e, hexcepted, he⟩ | h
  · exact absurd hexcepted (hnot e he)
  · exact h

variable {R : Machine → Machine → Prop}

theorem Outcome.Agree.recast {ε α : Type} {o o' : Outcome Machine ε α} (h : Agree R o o')
    (failure : ε → Failure) (answer : α → Answer) :
    Agree R (o.recast failure answer) (o'.recast failure answer) where
  result := by simp only [Outcome.recast, h.result]
  log := h.log
  state := h.state

namespace Work

variable {α β : Type}

/-- On related machines the work goes the same way, and leaves related machines. -/
def Respects (R : Machine → Machine → Prop) (work : Work α) : Prop :=
  ∀ ⦃m m'⦄, R m m' → Outcome.Agree R (work m) (work m')

/-- The same, unless the first machine is left in an excepted trap. -/
def RespectsUnless (excepted : Trap → Prop) (R : Machine → Machine → Prop) (work : Work α) : Prop :=
  ∀ ⦃m m'⦄, R m m' → Outcome.AgreeUnless excepted R (work m) (work m')

variable {excepted : Trap → Prop}

theorem Respects.unless {work : Work α} (h : work.Respects R) : work.RespectsUnless excepted R :=
  fun _ _ hm => .inr (h hm)

theorem RespectsUnless.always {work : Work α} (h : work.RespectsUnless (fun _ => False) R) :
    work.Respects R :=
  fun _ _ hm => (h hm).agree fun _ _ => not_false

theorem respects_pure (a : α) : (pure a : Work α).Respects R :=
  fun _ _ h => ⟨rfl, rfl, h⟩

theorem respects_trap (t : Trap) : (trap t : Work α).Respects R :=
  fun _ _ h => ⟨rfl, rfl, h⟩

theorem respects_report (e : Event) : (report e).Respects R :=
  fun _ _ h => ⟨rfl, rfl, h⟩

theorem RespectsUnless.bind {first : Work α} {second : α → Work β}
    (hfirst : first.RespectsUnless excepted R)
    (hsecond : ∀ a, (second a).RespectsUnless excepted R) :
    (first >>= second).RespectsUnless excepted R := by
  intro m m' h
  rcases hfirst h with ⟨t, ht, hr⟩ | ⟨hresult, hlog, hstate⟩
  · exact .inl ⟨t, ht, by simp only [Bind.bind, hr]⟩
  · simp only [Bind.bind, ← hresult, ← hlog]
    cases (first m).result with
    | error t => exact .inr ⟨rfl, rfl, hstate⟩
    | ok a =>
      rcases hsecond a hstate with ⟨t, ht, hr⟩ | ⟨hresult', hlog', hstate'⟩
      · exact .inl ⟨t, ht, hr⟩
      · exact .inr ⟨hresult', congrArg ((first m).log ++ ·) hlog', hstate'⟩

end Work

/-- The operand that names the register an action writes, if it writes one. -/
def Action.target? : Action → List Word → Option Word
  | .store, _ | .branch, _ => none
  | _, operands => operands.head?

section Access

variable {excepted : Trap → Prop}

theorem Action.perform_respectsUnless
    (register : ∀ index, (Work.register index).RespectsUnless excepted R)
    (word : ∀ address, (Work.word address).RespectsUnless excepted R)
    (setWord : ∀ address value, (Work.setWord address value).RespectsUnless excepted R)
    (a : Action) (operands : List Word)
    (setRegister : ∀ target ∈ a.target? operands, ∀ value,
      (Work.setRegister target value).RespectsUnless excepted R) :
    (a.perform operands).RespectsUnless excepted R := by
  have trap : (Work.trap .operandCount : Work Flow).RespectsUnless excepted R :=
    (Work.respects_trap _).unless
  have next : (pure Flow.next : Work Flow).RespectsUnless excepted R :=
    (Work.respects_pure _).unless
  have address (base displacement : Word) :
      (Work.address base displacement).RespectsUnless excepted R :=
    (register base).bind fun _ => (Work.respects_pure _).unless
  cases a with
  | binary f =>
    match operands with
    | [] | [_] | [_, _] | _ :: _ :: _ :: _ :: _ => exact trap
    | [target, first, second] =>
      exact (register first).bind fun a => (register second).bind fun b =>
        (setRegister target rfl (f a b)).bind fun _ => next
  | unary f =>
    match operands with
    | [] | [_] | _ :: _ :: _ :: _ => exact trap
    | [target, source] =>
      exact (register source).bind fun a => (setRegister target rfl (f a)).bind fun _ => next
  | immediate f =>
    match operands with
    | [] | [_] | [_, _] | _ :: _ :: _ :: _ :: _ => exact trap
    | [target, source, literal] =>
      exact (register source).bind fun a =>
        (setRegister target rfl (f a literal)).bind fun _ => next
  | constant f =>
    match operands with
    | [] | [_] | _ :: _ :: _ :: _ => exact trap
    | [target, literal] => exact (setRegister target rfl (f literal)).bind fun _ => next
  | load f =>
    match operands with
    | [] | [_] | [_, _] | _ :: _ :: _ :: _ :: _ => exact trap
    | [target, base, displacement] =>
      exact (address base displacement).bind fun place => (word place).bind fun w =>
        (setRegister target rfl (f w)).bind fun _ => next
  | store =>
    match operands with
    | [] | [_] | [_, _] | _ :: _ :: _ :: _ :: _ => exact trap
    | [source, base, displacement] =>
      exact (register source).bind fun value => (address base displacement).bind fun place =>
        (setWord place value).bind fun _ => next
  | branch =>
    match operands with
    | [] | [_] | [_, _] | _ :: _ :: _ :: _ :: _ => exact trap
    | [first, second, target] =>
      refine (register first).bind fun a => (register second).bind fun b => ?_
      split
      · exact (Work.respects_report _).unless.bind fun _ => (Work.respects_pure _).unless
      · exact next

theorem Action.perform_respects (register : ∀ index, (Work.register index).Respects R)
    (word : ∀ address, (Work.word address).Respects R)
    (setWord : ∀ address value, (Work.setWord address value).Respects R)
    (a : Action) (operands : List Word)
    (setRegister : ∀ target ∈ a.target? operands, ∀ value,
      (Work.setRegister target value).Respects R) :
    (a.perform operands).Respects R :=
  (perform_respectsUnless (fun index => (register index).unless)
    (fun address => (word address).unless) (fun address value => (setWord address value).unless)
    a operands
    fun target ht value => (setRegister target ht value).unless).always

end Access

theorem Instruction.execute_agreeUnless {i : Instruction} {operands : List Word} {m m' : Machine}
    {trap : Trap → Prop} {excepted : ExecutionError → Prop}
    (hexcepted : ∀ t, trap t → excepted (i.explain operands t))
    (hperform : (i.operation.action.perform operands).RespectsUnless trap R) (h : R m m') :
    Outcome.AgreeUnless excepted R (i.execute operands m) (i.execute operands m') := by
  rcases hperform h with ⟨t, ht, hr⟩ | ⟨hresult, hlog, hstate⟩
  · exact .inl ⟨_, hexcepted t ht, by rw [execute, hr, mapError_error]⟩
  · exact .inr ⟨by simp only [execute, hresult], by simp only [execute, hlog], hstate⟩

theorem Instruction.execute_agree {i : Instruction} {operands : List Word} {m m' : Machine}
    (hperform : (i.operation.action.perform operands).Respects R) (h : R m m') :
    Outcome.Agree R (i.execute operands m) (i.execute operands m') := by
  have hnever : Outcome.AgreeUnless (fun _ => False) R (i.execute operands m)
      (i.execute operands m') := execute_agreeUnless (fun _ => id) hperform.unless h
  exact hnever.agree fun _ _ => not_false

namespace Program

variable {p : Program} {excepted : ExecutionError → Prop}

/-- Statements agree on where control goes, so two runs stay at the same place. An excepted failure
of a statement is one of the run. -/
theorem resume_agreeUnless
    (hexecute : ∀ s ∈ p, ∀ m m', R m m' →
      Outcome.AgreeUnless excepted R (s.execute m) (s.execute m'))
    (fuel : Nat) (r : Progress) {m' : Machine} (h : R r.machine m') :
    Outcome.AgreeUnless excepted R (p.resume fuel r) (p.resume fuel { r with machine := m' }) := by
  induction fuel generalizing r m' with
  | zero => exact .inr ⟨rfl, rfl, h⟩
  | succ fuel ih =>
    have hstatement : ∀ {s}, p.at? r.pc = some s →
        Outcome.AgreeUnless excepted R (s.execute r.machine) (s.execute m') :=
      fun found => hexecute _ (Array.mem_of_getElem? found) _ _ h
    cases p.turn r with
    | outside nothing =>
      rw [resume_outside _ nothing, resume_outside _ (by exact nothing)]
      exact .inr ⟨rfl, rfl, h⟩
    | failed found failure =>
      rw [resume_error _ found failure]
      rcases hstatement found with ⟨e, he, hr⟩ | ⟨hresult, hlog, -⟩
      · obtain rfl := Except.error.inj (failure.symm.trans hr)
        exact .inl ⟨_, he, rfl⟩
      · rw [resume_error _ (by exact found) (hresult.symm.trans failure)]
        exact .inr ⟨rfl, by rw [hlog], h⟩
    | last found done nowhere =>
      obtain ⟨hresult, hlog, hstate⟩ :=
        (hstatement found).agree fun _ he => nomatch done.symm.trans he
      rw [resume_last _ found done nowhere,
        resume_last _ (by exact found) (hresult.symm.trans done) (by exact nowhere)]
      exact .inr ⟨rfl, by simp only [Progress.executed, Progress.finish, hlog], hstate⟩
    | further found done place =>
      obtain ⟨hresult, hlog, hstate⟩ :=
        (hstatement found).agree fun _ he => nomatch done.symm.trans he
      rw [resume_on _ found done place,
        resume_on _ (by exact found) (hresult.symm.trans done) (by exact place)]
      simp only [Progress.executed, ← hlog]
      exact ih _ hstate

theorem run_agreeUnless
    (hexecute : ∀ s ∈ p, ∀ m m', R m m' →
      Outcome.AgreeUnless excepted R (s.execute m) (s.execute m'))
    {m m' : Machine} (h : R m m') (maxSteps : Nat) :
    Outcome.AgreeUnless excepted R (p.run m maxSteps) (p.run m' maxSteps) :=
  resume_agreeUnless hexecute maxSteps { machine := m } h

theorem run_agree
    (hexecute : ∀ s ∈ p, ∀ m m', R m m' → Outcome.Agree R (s.execute m) (s.execute m'))
    {m m' : Machine} (h : R m m') (maxSteps : Nat) :
    Outcome.Agree R (p.run m maxSteps) (p.run m' maxSteps) := by
  have hnever : Outcome.AgreeUnless (fun _ => False) R (p.run m maxSteps) (p.run m' maxSteps) :=
    run_agreeUnless (fun s hs m m' hm => .inr (hexecute s hs m m' hm)) h maxSteps
  exact hnever.agree fun _ _ => not_false

end Program

theorem Machine.session_agree (calls : List Call)
    (hcall : ∀ c ∈ calls, ∀ m m', R m m' → Outcome.Agree R (c.perform m) (c.perform m'))
    {m m' : Machine} (h : R m m') :
    m.replies calls = m'.replies calls ∧ R (m.after calls) (m'.after calls) := by
  induction calls generalizing m m' with
  | nil => exact ⟨rfl, h⟩
  | cons c rest ih =>
    obtain ⟨hresult, hlog, hstate⟩ := hcall c List.mem_cons_self m m' h
    obtain ⟨hreplies, hafter⟩ := ih (fun d hd => hcall d (List.mem_cons_of_mem c hd)) hstate
    exact ⟨by rw [replies, replies, hresult, hlog, hreplies], hafter⟩

end WordMachine
