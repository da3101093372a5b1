import Mathlib.Data.Nat.Prime.Basic
import WordMachine.Word

namespace WordMachine

/-- Candidates are tried in steps of two, so an odd start tries the odd ones. -/
theorem noOddDivisorFrom_iff {n d : Nat} (hd : d % 2 = 1) :
    noOddDivisorFrom n d = true ↔ ∀ e, d ≤ e → e % 2 = 1 → e * e ≤ n → ¬ e ∣ n := by
  fun_induction noOddDivisorFrom n d with
  | case1 d hle ih =>
    simp only [Bool.and_eq_true, bne_iff_ne, ih (by omega)]
    constructor
    · rintro ⟨hn, h⟩ e hde he hee
      rcases Nat.eq_or_lt_of_le hde with rfl | hlt
      · exact fun hdvd => hn (Nat.mod_eq_zero_of_dvd hdvd)
      · exact h e (by omega) he hee
    · intro h
      refine ⟨fun hn => h d le_rfl hd hle (Nat.dvd_of_mod_eq_zero hn), ?_⟩
      intro e hde
      exact h e (by omega)
  | case2 d hle =>
    simp only [true_iff]
    intro e hde _ hee
    have := Nat.mul_le_mul hde hde
    omega

theorem primeByTrial_iff (n : Nat) : primeByTrial n = true ↔ n.Prime := by
  unfold primeByTrial
  split_ifs with h1 h3 he
  · simp only [false_iff]
    intro hp
    have := hp.two_le
    omega
  · simp only [true_iff]
    obtain rfl | rfl : n = 2 ∨ n = 3 := by omega
    · exact Nat.prime_two
    · exact Nat.prime_three
  · simp only [false_iff]
    intro hp
    have := hp.eq_two_or_odd
    omega
  · rw [noOddDivisorFrom_iff (by decide), Nat.prime_def_le_sqrt]
    constructor
    · intro h
      refine ⟨by omega, fun e h2 hs hdvd => ?_⟩
      -- A divisor of an odd number is odd, hence one of the candidates.
      have hodd : e % 2 = 1 := by
        obtain ⟨k, rfl⟩ := hdvd
        by_contra hne
        have hz : e % 2 = 0 := by omega
        exact he (by rw [Nat.mul_mod, hz, Nat.zero_mul, Nat.zero_mod])
      exact h e (by omega) hodd (Nat.le_sqrt.mp hs) hdvd
    · intro h e h3 _ hee
      exact h.2 e (by omega) (Nat.le_sqrt.mpr hee)

theorem Word.isPrime_iff (w : Word) : w.isPrime = true ↔ w.toInt.toNat.Prime :=
  primeByTrial_iff _

theorem prime_toNat_iff (n : Int) :
    n.toNat.Prime ↔ 2 ≤ n ∧ ∀ d, 1 < d → d < n → ¬ d ∣ n := by
  rw [Nat.prime_def_lt']
  constructor
  · rintro ⟨h2, h⟩
    have hn : (n.toNat : Int) = n := Int.toNat_of_nonneg (by omega)
    refine ⟨by omega, fun d h1 hlt hdvd => h d.toNat (by omega) (by omega) ?_⟩
    have hd : (d.toNat : Int) = d := Int.toNat_of_nonneg (by omega)
    rw [← Int.natCast_dvd_natCast, hn, hd]
    exact hdvd
  · rintro ⟨h2, h⟩
    have hn : (n.toNat : Int) = n := Int.toNat_of_nonneg (by omega)
    refine ⟨by omega, fun d h1 hlt hdvd => h d (by omega) (by omega) ?_⟩
    rw [← hn, Int.natCast_dvd_natCast]
    exact hdvd

/-- A word is found to be prime if and only if, read with its sign, it is at least 2 and nothing
strictly between 1 and itself divides it. -/
theorem Word.isPrime_iff_no_divisor (w : Word) :
    w.isPrime = true ↔ 2 ≤ w.toInt ∧ ∀ d, 1 < d → d < w.toInt → ¬ d ∣ w.toInt := by
  rw [isPrime_iff]
  exact prime_toNat_iff w.toInt

end WordMachine
