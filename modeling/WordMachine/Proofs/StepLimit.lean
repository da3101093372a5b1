import Mathlib.Logic.ExistsUnique
import WordMachine.Proofs.SmallStep

namespace WordMachine

/-- What becomes of a run without a limit: it never ends, control leaves the program after so many
steps, or the statement after so many steps fails. -/
inductive Fate
  | endless
  | leaves (steps : Nat)
  | fails (steps : Nat) (e : ExecutionError)

namespace Fate

def steps (limit : Nat) : Fate → Nat
  | .endless => limit
  | .leaves steps | .fails steps _ => min limit steps

/-- The answer when there is a limit. It takes one more than the steps done to see the failure. -/
def result (limit : Nat) : Fate → Except ExecutionError Nat
  | .endless => .ok limit
  | .leaves steps => .ok (min limit steps)
  | .fails steps e => if limit ≤ steps then .ok limit else .error e

/-- The answers tell one fate from another, each at a limit beyond both. -/
theorem eq_of_result {f f' : Fate} (h : ∀ limit, f.result limit = f'.result limit) : f = f' := by
  cases f with
  | endless =>
    cases f' with
    | endless => rfl
    | leaves j => simpa [result] using h (j + 1)
    | fails j e => simpa [result] using h (j + 1)
  | leaves i =>
    cases f' with
    | endless => simpa [result] using h (i + 1)
    | leaves j =>
      have hij : i = j := by simpa [result] using h (i + j)
      rw [hij]
    | fails j e =>
      have hlt : ¬ i + j + 1 ≤ j := by omega
      simpa [result, hlt] using h (i + j + 1)
  | fails i e =>
    cases f' with
    | endless => simpa [result] using h (i + 1)
    | leaves j =>
      have hlt : ¬ i + j + 1 ≤ i := by omega
      simpa [result, hlt] using h (i + j + 1)
    | fails j e' =>
      have hij : i = j := by
        rcases Nat.lt_trichotomy i j with hlt | heq | hlt
        · simpa [result, Nat.succ_le_of_lt hlt] using h (i + 1)
        · exact heq
        · simpa [result, Nat.succ_le_of_lt hlt] using h (j + 1)
      subst hij
      have hlt : ¬ i + 1 ≤ i := by omega
      have he : e = e' := by simpa [result, hlt] using h (i + 1)
      rw [he]

end Fate

namespace Program

variable {p : Program}

theorem resume_ok {fuel count : Nat} {r : Progress} (h : (p.resume fuel r).result = .ok count) :
    ∃ k, count = r.steps + k ∧
      (k = fuel ∨ k < fuel ∧ ∀ n, k ≤ n → p.resume n r = p.resume fuel r) := by
  induction fuel generalizing r with
  | zero =>
    cases h
    exact ⟨0, rfl, .inl rfl⟩
  | succ fuel ih =>
    cases p.turn r with
    | outside nothing =>
      rw [resume_outside _ nothing] at h
      cases h
      refine ⟨0, rfl, .inr ⟨Nat.succ_pos fuel, fun n _ => ?_⟩⟩
      rw [resume_outside _ nothing, resume_outside _ nothing]
    | failed found failure =>
      rw [resume_error _ found failure] at h
      cases h
    | last found done nowhere =>
      rw [resume_last _ found done nowhere] at h
      cases h
      refine ⟨1, rfl, ?_⟩
      rcases Nat.eq_zero_or_pos fuel with rfl | hpos
      · exact .inl rfl
      · refine .inr ⟨Nat.succ_lt_succ hpos, fun n hle => ?_⟩
        obtain ⟨n, rfl⟩ := Nat.exists_eq_add_of_le' hle
        rw [resume_last _ found done nowhere, resume_last _ found done nowhere]
    | further found done place =>
      rw [resume_on _ found done place] at h
      obtain ⟨k, rfl, hk⟩ := ih h
      refine ⟨k + 1, Nat.succ_add_eq_add_succ r.steps k, ?_⟩
      rcases hk with rfl | ⟨hlt, hsame⟩
      · exact .inl rfl
      · refine .inr ⟨Nat.succ_lt_succ hlt, fun n hle => ?_⟩
        obtain ⟨n, rfl⟩ := Nat.exists_eq_add_of_le' hle
        rw [← Nat.add_assoc, resume_on _ found done place, resume_on _ found done place]
        exact hsame _ (Nat.le_add_left k n)

theorem resume_failed {fuel : Nat} {r : Progress} {e : ExecutionError}
    (h : (p.resume fuel r).result = .error e) :
    ∃ j < fuel, (p.resume j r).result = .ok (r.steps + j) ∧
      (p.resume j r).state = (p.resume fuel r).state ∧
        ∀ n, j < n → p.resume n r = p.resume fuel r := by
  induction fuel generalizing r with
  | zero => cases h
  | succ fuel ih =>
    cases p.turn r with
    | outside nothing =>
      rw [resume_outside _ nothing] at h
      cases h
    | failed found failure =>
      refine ⟨0, Nat.succ_pos fuel, rfl, by rw [resume_error _ found failure]; rfl, ?_⟩
      intro n hlt
      obtain ⟨n, rfl⟩ := Nat.exists_eq_add_of_le' hlt
      rw [resume_error _ found failure, resume_error _ found failure]
    | last found done nowhere =>
      rw [resume_last _ found done nowhere] at h
      cases h
    | further found done place =>
      rw [resume_on _ found done place] at h ⊢
      obtain ⟨j, hj, hok, hstate, hsame⟩ := ih h
      refine ⟨j + 1, Nat.succ_lt_succ hj, ?_, by rw [resume_on _ found done place, hstate], ?_⟩
      · rw [resume_on _ found done place, hok]
        exact congrArg Except.ok (Nat.succ_add_eq_add_succ r.steps j)
      · intro n hlt
        obtain ⟨n, rfl⟩ := Nat.exists_eq_add_of_le' (Nat.zero_lt_of_lt hlt)
        rw [resume_on _ found done place]
        exact hsame n (Nat.lt_of_succ_lt_succ hlt)

variable {m : Machine}

theorem run_ok {limit k : Nat} (h : (p.run m limit).result = .ok k) :
    k = limit ∨ k < limit ∧ ∀ n, k ≤ n → p.run m n = p.run m limit := by
  obtain ⟨k', hk, hcases⟩ := resume_ok (r := { machine := m }) h
  obtain rfl : k = k' := hk.trans (Nat.zero_add k')
  exact hcases

theorem run_failed {limit : Nat} {e : ExecutionError} (h : (p.run m limit).result = .error e) :
    ∃ j < limit, (p.run m j).result = .ok j ∧ (p.run m j).state = (p.run m limit).state ∧
      ∀ n, j < n → p.run m n = p.run m limit := by
  obtain ⟨j, hj, hok, hrest⟩ := resume_failed (r := { machine := m }) h
  rw [Nat.zero_add] at hok
  exact ⟨j, hj, hok, hrest⟩

theorem run_full {j n : Nat} (h : (p.run m j).result = .ok j) (hle : n ≤ j) :
    (p.run m n).result = .ok n := by
  cases hr : (p.run m n).result with
  | ok k =>
    rcases run_ok hr with rfl | ⟨hlt, hsame⟩
    · rfl
    · rw [hsame j (by omega), hr] at h
      cases h
      omega
  | error e =>
    obtain ⟨i, hi, -, -, hsame⟩ := run_failed hr
    rw [hsame j (by omega), hr] at h
    cases h

/-- The runs under all limits show this fate: each answers as the fate does under the limit, and
has the machine of the steps that were done. -/
def Meets (p : Program) (m : Machine) (fate : Fate) : Prop :=
  ∀ limit, (p.run m limit).result = fate.result limit ∧
    (p.run m limit).state = (p.run m (fate.steps limit)).state

theorem meets_endless (h : ∀ limit, (p.run m limit).result = .ok limit) : p.Meets m .endless :=
  fun limit => ⟨h limit, rfl⟩

theorem meets_leaves {limit k : Nat} (h : (p.run m limit).result = .ok k)
    (hsame : ∀ n, k ≤ n → p.run m n = p.run m limit) : p.Meets m (.leaves k) := by
  have hk : (p.run m k).result = .ok k := by rw [hsame k (Nat.le_refl k), h]
  intro n
  rw [Fate.result, Fate.steps]
  rcases Nat.le_total n k with hle | hge
  · rw [Nat.min_eq_left hle]
    exact ⟨run_full hk hle, rfl⟩
  · rw [Nat.min_eq_right hge, hsame n hge, hsame k (Nat.le_refl k)]
    exact ⟨h, rfl⟩

theorem meets_fails {limit j : Nat} {e : ExecutionError} (h : (p.run m limit).result = .error e)
    (hj : (p.run m j).result = .ok j) (hstate : (p.run m j).state = (p.run m limit).state)
    (hsame : ∀ n, j < n → p.run m n = p.run m limit) : p.Meets m (.fails j e) := by
  intro n
  rw [Fate.result, Fate.steps]
  rcases Nat.lt_or_ge j n with hlt | hge
  · rw [Nat.min_eq_right (Nat.le_of_lt hlt), if_neg (Nat.not_le_of_lt hlt), hsame n hlt]
    exact ⟨h, hstate.symm⟩
  · rw [Nat.min_eq_left hge, if_pos hge]
    exact ⟨run_full hj hge, rfl⟩

/-- Either every limit is used up, or one that is not shows how the run ends. -/
theorem exists_meets (p : Program) (m : Machine) : ∃ fate, p.Meets m fate := by
  by_cases hfull : ∀ limit, (p.run m limit).result = .ok limit
  · exact ⟨.endless, meets_endless hfull⟩
  · obtain ⟨limit, hlimit⟩ := Classical.not_forall.mp hfull
    cases hr : (p.run m limit).result with
    | ok k =>
      rcases run_ok hr with rfl | ⟨-, hsame⟩
      · exact absurd hr hlimit
      · exact ⟨.leaves k, meets_leaves hr hsame⟩
    | error e =>
      obtain ⟨j, -, hj, hstate, hsame⟩ := run_failed hr
      exact ⟨.fails j e, meets_fails hr hj hstate hsame⟩

theorem Meets.unique {f f' : Fate} (h : p.Meets m f) (h' : p.Meets m f') : f = f' :=
  Fate.eq_of_result fun limit => (h limit).1.symm.trans (h' limit).1

/-- Each machine meets exactly one fate in a program, and a limit does no more than cut the run off
before. So no answer counts more steps than the limit, and a run that ended early or failed is the
same under every higher limit. -/
theorem limit_only_cuts_off (p : Program) (m : Machine) :
    (∃! fate, p.Meets m fate) ∧
    (∀ limit k, (p.run m limit).result = .ok k → k ≤ limit) ∧
    ∀ limit higher, limit ≤ higher → (p.run m limit).result ≠ .ok limit →
      p.run m higher = p.run m limit := by
  refine ⟨existsUnique_of_exists_of_unique (exists_meets p m) fun f f' => Meets.unique,
    fun limit k hk => ?_, fun limit higher hle hne => ?_⟩
  · rcases run_ok hk with rfl | ⟨hlt, -⟩
    · exact Nat.le_refl k
    · exact Nat.le_of_lt hlt
  · cases hr : (p.run m limit).result with
    | ok k =>
      rcases run_ok hr with rfl | ⟨hlt, hsame⟩
      · exact absurd hr hne
      · exact hsame higher (by omega)
    | error e =>
      obtain ⟨j, hj, -, -, hsame⟩ := run_failed hr
      exact hsame higher (by omega)

end Program

end WordMachine
