import OpenIotSdk.Model.Lwip.Multicast

/-! # Joined groups and the filter of the EMAC

The EMAC gets the address of a group, which 32 IPv4 groups share, and all IPv6 groups with the
same last 32 bits. The filters do not count the groups behind an address. -/

namespace OpenIotSdk.Lwip.Multicast

open Transition

/-! ## The specification -/

/-- Two groups that the EMAC cannot tell apart. -/
def Alike : Group → Group → Prop
  | .ip4 a, .ip4 b => (ntohl a).setWidth 23 = (ntohl b).setWidth 23
  | .ip6 a, .ip6 b => a.addr3 = b.addr3
  | _, _ => False

def Group.mac : Group → Mac
  | .ip4 addr => igmpAddr addr
  | .ip6 addr => mldAddr addr

/-- Another joined group is like this one. -/
def Doubled (s : State) (group : Group) : Prop :=
  ∃ other, other ≠ group ∧ s.joined other = true ∧ Alike other group

/-- The EMAC takes the address of a group that is joined, unless it has it already; and it drops
the address of a group that is left, exactly if no joined group is like it. -/
def Fits (s : State) : Subscription.Action Group → Prop
  | .join group ok => ok = true ∨ Doubled s group
  | .leave group ok => ok = true ↔ ¬ Doubled s group

/-! ## Addresses -/

theorem toByte_shift_eq_iff {x y : BitVec 32} (n : ℕ) :
    toByte (x >>> n) = toByte (y >>> n) ↔
      ∀ i, n ≤ i → i < n + 8 → x.getLsbD i = y.getLsbD i := by
  rw [toByte, toByte, BitVec.eq_of_getLsbD_eq_iff]
  constructor
  · intro h i hn hi
    have hbit := h (i - n) (by omega)
    simpa [show i - n < 8 by omega, show n + (i - n) = i by omega] using hbit
  · intro h i hi
    simpa [hi] using h (n + i) (by omega) (by omega)

theorem toByte_eq_iff {x y : BitVec 32} :
    toByte x = toByte y ↔ ∀ i < 8, x.getLsbD i = y.getLsbD i := by
  have h := toByte_shift_eq_iff (x := x) (y := y) 0
  simpa using h

theorem getLsbD_mask {i : ℕ} (hi : i < 32) : (0x007FFFFF#32).getLsbD i = decide (i < 23) := by
  have hall : ∀ j : Fin 32, (0x007FFFFF#32).getLsbD j = decide ((j : ℕ) < 23) := by decide
  exact hall ⟨i, hi⟩

/-- The three bytes after the prefix are the low 23 bits of the group. -/
theorem igmpAddr_eq_iff (a b : BitVec 32) :
    igmpAddr a = igmpAddr b ↔ (ntohl a).setWidth 23 = (ntohl b).setWidth 23 := by
  simp only [igmpAddr, List.cons.injEq, and_true, true_and, toByte_shift_eq_iff]
  rw [toByte_eq_iff, BitVec.eq_of_getLsbD_eq_iff]
  constructor
  · rintro ⟨h16, h8, h0⟩ i hi
    have hbit : (ntohl a &&& 0x007FFFFF#32).getLsbD i = (ntohl b &&& 0x007FFFFF#32).getLsbD i := by
      rcases Nat.lt_or_ge i 8 with hlt | hge
      · exact h0 i hlt
      · rcases Nat.lt_or_ge i 16 with hlt | hge'
        · exact h8 i hge (by omega)
        · exact h16 i hge' (by omega)
    simpa [getLsbD_mask (show i < 32 by omega), hi] using hbit
  · intro h
    have hbit (i : ℕ) (hi : i < 32) :
        (ntohl a &&& 0x007FFFFF#32).getLsbD i = (ntohl b &&& 0x007FFFFF#32).getLsbD i := by
      rw [BitVec.getLsbD_and, BitVec.getLsbD_and, getLsbD_mask hi]
      by_cases hlow : i < 23
      · have hi' := h i hlow
        simp only [BitVec.getLsbD_setWidth, hlow, decide_true, Bool.true_and] at hi'
        rw [hi']
      · simp [hlow]
    exact ⟨fun i _ hi => hbit i (by omega), fun i _ hi => hbit i (by omega),
      fun i hi => hbit i (by omega)⟩

theorem ntohl_ntohl (x : BitVec 32) : ntohl (ntohl x) = x := by
  apply BitVec.eq_of_getLsbD_eq
  intro i hi
  simp only [ntohl, BitVec.getLsbD_append, BitVec.getLsbD_extractLsb']
  grind

/-- The four bytes after the prefix are the last word of the group. -/
theorem mldAddr_eq_iff (a b : Ip6Addr) : mldAddr a = mldAddr b ↔ a.addr3 = b.addr3 := by
  constructor
  · intro h
    simp only [mldAddr, List.cons.injEq, and_true, true_and, toByte_shift_eq_iff] at h
    obtain ⟨h24, h16, h8, h0⟩ := h
    rw [toByte_eq_iff] at h0
    have heq : ntohl a.addr3 = ntohl b.addr3 := by
      apply BitVec.eq_of_getLsbD_eq
      intro i hi
      rcases Nat.lt_or_ge i 8 with hlt | hge
      · exact h0 i hlt
      · rcases Nat.lt_or_ge i 16 with hlt | hge'
        · exact h8 i hge (by omega)
        · rcases Nat.lt_or_ge i 24 with hlt | hge''
          · exact h16 i hge' (by omega)
          · exact h24 i hge'' (by omega)
    rw [← ntohl_ntohl a.addr3, heq, ntohl_ntohl]
  · intro h
    rw [mldAddr, mldAddr, h]

theorem mac_eq_iff (g h : Group) : g.mac = h.mac ↔ Alike g h := by
  cases g with
  | ip4 a =>
      cases h with
      | ip4 b => exact igmpAddr_eq_iff a b
      | ip6 b => exact iff_of_false (by simp [Group.mac, igmpAddr, mldAddr]) id
  | ip6 a =>
      cases h with
      | ip4 b => exact iff_of_false (by simp [Group.mac, igmpAddr, mldAddr]) id
      | ip6 b => exact mldAddr_eq_iff a b

/-! ## Runs -/

theorem doubled_iff (s : State) (group : Group) :
    Doubled s group ↔ Subscription.Shared Group.mac s group := by
  simp only [Doubled, Subscription.Shared, mac_eq_iff]

theorem fits_eq : Fits = Subscription.Fits Group.mac := by
  funext s a
  cases a <;> simp only [Fits, Subscription.Fits, doubled_iff]

theorem filter_add (group : Group) (filter : EmacFilter) (ok : Bool) :
    (group.filter filter .addMacFilter ok).1 =
      Subscription.setFilter filter group.mac true ok := by
  cases group <;> rfl

theorem filter_del (group : Group) (filter : EmacFilter) (ok : Bool) :
    (group.filter filter .delMacFilter ok).1 =
      Subscription.setFilter filter group.mac false ok := by
  cases group <;> rfl

theorem step_eq : step = Subscription.step Group.mac := by
  funext s a
  cases a with
  | join group ok => simp only [step, Subscription.step, filter_add]
  | leave group ok => simp only [step, Subscription.step, filter_del]

/-- The EMAC lets the frames of the joined groups pass, and no other multicast frames, throughout
a run of joins and leaves, exactly if no group is left while one like it is joined; where the EMAC
fails, the address must be that of such a group. -/
theorem multicast_always_iff (acts : List (Subscription.Action Group)) :
    Always step (Subscription.Exact Group.mac) Subscription.init acts ↔
      Meets step Fits Subscription.init acts := by
  rw [step_eq, fits_eq]
  exact Subscription.always_exact_iff acts

end OpenIotSdk.Lwip.Multicast
