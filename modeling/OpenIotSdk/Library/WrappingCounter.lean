import Mathlib.Data.BitVec
import Mathlib.Data.List.Basic
import Mathlib.Data.Nat.Basic

/-! # Counters that wrap around

What has been counted is rebuilt from the remainders that are read. Between two readings the
counter does not go all the way around. -/

namespace WrappingCounter

/-! ## Schedules -/

/-- The counts at which readings are taken, with the gaps between them. -/
def instants (start : ℕ) : List ℕ → List ℕ
  | [] => []
  | gap :: gaps => (start + gap) :: instants (start + gap) gaps

theorem le_of_mem_instants {start t : ℕ} {gaps : List ℕ} (h : t ∈ instants start gaps) :
    start ≤ t := by
  induction gaps generalizing start with
  | nil => cases h
  | cons gap gaps ih =>
      obtain rfl | h := List.mem_cons.mp h
      · exact Nat.le_add_right start gap
      · exact (Nat.le_add_right start gap).trans (ih h)

/-- Time does not go backwards. -/
theorem pairwise_instants (start : ℕ) (gaps : List ℕ) :
    (instants start gaps).Pairwise (· ≤ ·) := by
  induction gaps generalizing start with
  | nil => exact List.Pairwise.nil
  | cons gap gaps ih => exact List.Pairwise.cons (fun _ => le_of_mem_instants) (ih (start + gap))

/-! ## Readings -/

variable {m t n : ℕ}

/-- Where the remainder falls, the counter has wrapped once. -/
theorem div_eq_ite (hle : t ≤ n) (hlt : n < t + m) :
    n / m = if n % m < t % m then t / m + 1 else t / m := by
  have ht := Nat.div_add_mod t m
  have hn := Nat.div_add_mod n m
  have htm : t % m < m := Nat.mod_lt t (by omega)
  have hnm : n % m < m := Nat.mod_lt n (by omega)
  have hlow : t / m ≤ n / m := Nat.div_le_div_right hle
  have hhigh : n / m ≤ t / m + 1 := by
    rw [← Nat.add_div_right t (by omega)]
    exact Nat.div_le_div_right hlt.le
  obtain heq | heq : n / m = t / m ∨ n / m = t / m + 1 := by omega
  · rw [heq] at hn ⊢
    rw [if_neg (by omega)]
  · rw [heq, Nat.mul_succ] at hn
    rw [heq, if_pos (by omega)]

/-- What has been counted since a reading. -/
theorem ofNat_sub_ofNat (w : ℕ) (hle : t ≤ n) :
    BitVec.ofNat w n - BitVec.ofNat w t = BitVec.ofNat w (n - t) := by
  calc BitVec.ofNat w n - BitVec.ofNat w t
      = BitVec.ofNat w (n - t + t) - BitVec.ofNat w t := by rw [Nat.sub_add_cancel hle]
    _ = BitVec.ofNat w (n - t) + BitVec.ofNat w t - BitVec.ofNat w t := by rw [BitVec.ofNat_add]
    _ = BitVec.ofNat w (n - t) := BitVec.add_sub_cancel _ _

/-! ## Divided counters

What is counted modulo `m` is divided by `f`, and so are the gaps. The difference of two quotients
is taken modulo `m` too. -/

/-- An answer is that of a division by `f`, up to one. -/
def Near (f gap answer : ℕ) : Prop := gap ≤ answer * f + f ∧ answer * f ≤ gap + f

/-- Between the readings `a` and `b` of the counter it has wrapped so often that the quotients still
tell the gap: not at all, or around all the values of the quotients. Once more or less often, the
quotients tell it where a wrap is no more than two divisors. -/
inductive Kept (m f a b wraps : ℕ) : Prop where
  | unwrapped : wraps = 0 → Kept m f a b wraps
  | around : wraps = f → b / f < a / f → Kept m f a b wraps
  | first : wraps = 1 → a / f ≤ b / f → m + b % f ≤ f + a % f → Kept m f a b wraps
  | last : wraps + 1 = f → b / f < a / f → m + a % f ≤ f + b % f → Kept m f a b wraps

/-- The quotients do not fall between the readings. -/
theorem near_of_le {f a b wraps gap : ℕ} (hf : 0 < f) (hfm : f < m) (hle : a / f ≤ b / f)
    (hgap : a + gap = m * wraps + b) :
    Near f gap (b / f - a / f) ↔ wraps = 0 ∨ wraps = 1 ∧ m + b % f ≤ f + a % f := by
  have ha := Nat.div_add_mod' a f
  have hb := Nat.div_add_mod' b f
  have har := Nat.mod_lt a hf
  have hbr := Nat.mod_lt b hf
  have hquotients : a / f * f ≤ b / f * f := Nat.mul_le_mul_right f hle
  rw [Near, Nat.sub_mul]
  match wraps with
  | 0 => simp only [Nat.mul_zero] at hgap; omega
  | 1 => simp only [Nat.mul_one] at hgap; omega
  | wraps + 2 =>
      have htwice : m * (wraps + 2) = m * wraps + 2 * m := by rw [Nat.mul_add, Nat.mul_comm m 2]
      rw [htwice] at hgap
      omega

/-- The quotients fall, so that their difference is taken modulo `m`. -/
theorem near_of_lt {f a b wraps gap : ℕ} (hf : 0 < f) (hfm : f < m) (hlt : b / f < a / f)
    (ha : a < m) (hwraps : wraps ≤ f) (hgap : a + gap = m * wraps + b) :
    Near f gap (m + b / f - a / f) ↔ wraps = f ∨ wraps + 1 = f ∧ m + a % f ≤ f + b % f := by
  have hle : a / f ≤ a := Nat.div_le_self a f
  have hdiva := Nat.div_add_mod' a f
  have hdivb := Nat.div_add_mod' b f
  have har := Nat.mod_lt a hf
  have hbr := Nat.mod_lt b hf
  have hquotients : b / f * f ≤ a / f * f := Nat.mul_le_mul_right f hlt.le
  have hbelow : a / f * f ≤ m * f := Nat.mul_le_mul_right f (hle.trans ha.le)
  have hturn : m * f = m * wraps + m * (f - wraps) := by
    rw [← Nat.mul_add, Nat.add_sub_cancel' hwraps]
  rw [Near, Nat.sub_mul, Nat.add_mul]
  match hmissing : f - wraps with
  | 0 =>
      rw [hmissing, Nat.mul_zero] at hturn
      omega
  | 1 =>
      rw [hmissing, Nat.mul_one] at hturn
      omega
  | missing + 2 =>
      have htwice : m * (missing + 2) = m * missing + 2 * m := by
        rw [Nat.mul_add, Nat.mul_comm m 2]
      rw [hmissing, htwice] at hturn
      omega

/-- The difference of the quotients tells a gap that it can express. -/
theorem near_iff_kept {f a gap : ℕ} (hf : 0 < f) (hfm : f < m) (ha : a < m) (hgap : gap < m * f) :
    Near f gap ((m + (a + gap) % m / f - a / f) % m) ↔
      Kept m f a ((a + gap) % m) ((a + gap) / m) := by
  have hm : 0 < m := by omega
  have hsplit : a + gap = m * ((a + gap) / m) + (a + gap) % m := (Nat.div_add_mod _ m).symm
  have hb : (a + gap) % m < m := Nat.mod_lt _ hm
  generalize (a + gap) / m = wraps at *
  generalize (a + gap) % m = b at *
  have hwraps : wraps ≤ f := by
    have hle : m * wraps < m * (f + 1) := by
      rw [Nat.mul_add, Nat.mul_one]
      omega
    exact Nat.lt_succ_iff.mp (Nat.lt_of_mul_lt_mul_left hle)
  have hqa : a / f ≤ a := Nat.div_le_self a f
  have hqb : b / f ≤ b := Nat.div_le_self b f
  rcases Nat.lt_or_ge (b / f) (a / f) with hlt | hle
  · have hmod : (m + b / f - a / f) % m = m + b / f - a / f := Nat.mod_eq_of_lt (by omega)
    rw [hmod, near_of_lt hf hfm hlt ha hwraps hsplit]
    constructor
    · rintro (hall | ⟨hlast, hclose⟩)
      · exact .around hall hlt
      · exact .last hlast hlt hclose
    · intro h
      cases h with
      | unwrapped hnone =>
          have hfalls : a / f ≤ b / f := Nat.div_le_div_right (by rw [hnone] at hsplit; omega)
          omega
      | around hall _ => exact Or.inl hall
      | first _ hle => omega
      | last hlast _ hclose => exact Or.inr ⟨hlast, hclose⟩
  · have hmod : (m + b / f - a / f) % m = b / f - a / f := by
      rw [Nat.add_sub_assoc hle, Nat.add_mod_left]
      exact Nat.mod_eq_of_lt ((Nat.sub_le _ _).trans_lt (by omega))
    rw [hmod, near_of_le hf hfm hle hsplit]
    constructor
    · rintro (hnone | ⟨hfirst, hclose⟩)
      · exact .unwrapped hnone
      · exact .first hfirst hle hclose
    · intro h
      cases h with
      | unwrapped hnone => exact Or.inl hnone
      | around _ hlt => omega
      | first hfirst _ hclose => exact Or.inr ⟨hfirst, hclose⟩
      | last _ hlt => omega

end WrappingCounter
