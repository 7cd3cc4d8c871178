import OpenIotSdk.Library.Transition
import OpenIotSdk.Model.Netsocket.TcpSocket

/-! # Accounting of `TCPSocket::send`

A blocking call asks the stack once. A non-blocking one goes on until the stack refuses,
and then returns the error alone, whatever was accepted before it. -/

namespace OpenIotSdk.Netsocket

open Transition

variable {β : Type}

structure Call (β : Type) where
  socket : Socket
  data : Buffer β
  replies : List ℤ

def Call.outcome (c : Call β) : Option (Outcome β) := send c.socket c.data c.replies

/-- What the calls that have returned tell their caller: the counts add up to what the
stack accepted, which starts each buffer, and an error means that it accepted nothing. -/
structure Accounted (calls : List (Call β)) : Prop where
  sum : ((calls.filterMap Call.outcome).map fun o => max o.ret 0).sum =
    ((calls.filterMap Call.outcome).map fun o => (o.sent.length : ℤ)).sum
  inOrder : ∀ c ∈ calls, ∀ o, c.outcome = some o → o.sent <+: c.data.bytes
  error : ∀ c ∈ calls, ∀ o, c.outcome = some o → o.ret < 0 → o.sent = []

/-! ## The answers of the stack -/

/-- The results of `iotSocketSend` for `size` bytes, up to the first error or the last of
the bytes. -/
def results : ℕ → List ℤ → List ℤ
  | _, [] => []
  | size, reply :: replies =>
      let rc := iotSocketSend reply size
      if rc < 0 ∨ size ≤ rc then [rc] else rc :: results (size - rc.toNat) replies

/-- The bytes that these results accept. -/
def taken (rcs : List ℤ) : ℕ := (rcs.map Int.toNat).sum

/-- A non-blocking call in which the stack accepts something meets no error, and one in
which it accepts everything has a size that is an `int`. -/
def Call.Whole (c : Call β) : Prop :=
  let rcs := results c.data.bytes.length c.replies
  c.socket.id = iotSocketIdInvalid ∨ c.socket.timeout ≠ 0 ∨ taken rcs = 0 ∨
    (∀ rc ∈ rcs, 0 ≤ rc) ∧ (taken rcs = c.data.bytes.length → c.data.bytes.length < 2 ^ 31)

@[simp] theorem taken_nil : taken [] = 0 := rfl

@[simp] theorem taken_cons (rc : ℤ) (rcs : List ℤ) : taken (rc :: rcs) = rc.toNat + taken rcs := by
  simp [taken]

theorem taken_results_le (size : ℕ) (replies : List ℤ) : taken (results size replies) ≤ size := by
  induction replies generalizing size with
  | nil => exact Nat.zero_le _
  | cons reply replies ih =>
      have hle := (iotSocketSend_le reply size).1
      simp only [results]
      split
      · simp only [taken_cons, taken_nil]
        omega
      · have := ih (size - (iotSocketSend reply size).toNat)
        simp only [taken_cons]
        omega

/-! ## The loop -/

/-- How a non-blocking call ends: with everything accepted, or with an error. -/
theorem sendLoop_nonblocking {data : List β} {written : ℕ} {sent : List β} {replies : List ℤ}
    {o : Outcome β} (hwritten : written ≤ data.length)
    (h : sendLoop 0 data written sent replies = some o) :
    o.sent = sent ++ (data.drop written).take (taken (results (data.length - written) replies)) ∧
      ((∀ rc ∈ results (data.length - written) replies, 0 ≤ rc) ∧
          written + taken (results (data.length - written) replies) = data.length ∧
          o.ret = toInt32 data.length ∨
        (∃ rc ∈ results (data.length - written) replies, rc < 0) ∧ o.ret < 0) := by
  induction replies generalizing written sent with
  | nil => cases h
  | cons reply replies ih =>
      have hle := iotSocketSend_le reply (data.length - written)
      simp only [sendLoop, results] at h ⊢
      generalize iotSocketSend reply (data.length - written) = rc at h hle ⊢
      rcases lt_or_ge rc 0 with hneg | hpos
      · -- The stack refuses.
        have herror := iotSocketErrorToMbed_neg hneg
        rw [if_neg (by omega)] at h
        cases h
        rw [if_pos (.inl hneg)]
        refine ⟨by simp, .inr ⟨⟨rc, List.mem_singleton_self rc, hneg⟩, herror⟩⟩
      · rw [iotSocketErrorToMbed_of_nonneg hpos, if_pos hpos] at h
        split at h
        · next hall =>
            -- It has accepted the last byte.
            have hrc : rc.toNat = data.length - written := by omega
            obtain rfl := Option.some.inj h
            rw [if_pos (.inr (by omega)), taken_cons, taken_nil, hrc]
            refine ⟨rfl, .inl ⟨?_, ?_, ?_⟩⟩
            · simpa using hpos
            · exact Nat.add_sub_of_le hwritten
            · dsimp only
              rw [Nat.add_sub_of_le hwritten]
        · next hmore =>
            rw [if_pos trivial] at h
            obtain ⟨hsent, hend⟩ := ih (by omega) h
            rw [if_neg (by omega),
              show data.length - written - rc.toNat = data.length - (written + rc.toNat) by omega]
            simp only [taken_cons, List.mem_cons, forall_eq_or_imp, exists_eq_or_imp]
            refine ⟨?_, ?_⟩
            · rw [hsent, List.append_assoc, ← List.drop_drop, ← List.take_add]
            · apply hend.imp
              · rintro ⟨hall, hsum, hret⟩
                exact ⟨⟨hpos, hall⟩, by omega, hret⟩
              · rintro ⟨hex, hret⟩
                exact ⟨.inr hex, hret⟩

theorem sendLoop_unfinished {data : List β} {written : ℕ} {sent : List β} {replies : List ℤ}
    (h : sendLoop 0 data written sent replies = none) :
    (∀ rc ∈ results (data.length - written) replies, 0 ≤ rc) ∧
      (written + taken (results (data.length - written) replies) = data.length →
        written = data.length) := by
  induction replies generalizing written sent with
  | nil => exact ⟨nofun, fun hx => hx⟩
  | cons reply replies ih =>
      simp only [sendLoop, results] at h ⊢
      generalize iotSocketSend reply (data.length - written) = rc at h ⊢
      rcases lt_or_ge rc 0 with hneg | hpos
      · have herror := iotSocketErrorToMbed_neg hneg
        rw [if_neg (by omega)] at h
        cases h
      · rw [iotSocketErrorToMbed_of_nonneg hpos, if_pos hpos] at h
        split at h
        · cases h
        · next hmore =>
            rw [if_pos trivial] at h
            obtain ⟨hall, hend⟩ := ih h
            rw [if_neg (by omega),
              show data.length - written - rc.toNat = data.length - (written + rc.toNat) by omega]
            simp only [taken_cons, List.mem_cons, forall_eq_or_imp]
            refine ⟨⟨hpos, hall⟩, fun hx => ?_⟩
            have := hend (by omega)
            omega

/-! ## One call -/

/-- What every call does: it takes a front part of the buffer, and a count that it returns
is the length of that. -/
structure Counted (data : List β) (o : Outcome β) : Prop where
  front : o.sent <+: data
  count : 0 ≤ o.ret → o.ret = o.sent.length

theorem counted_once {data : List β} (hfits : data.length < 2 ^ 32) {timeout : ℕ}
    (htimeout : timeout ≠ 0) {replies : List ℤ} {o : Outcome β}
    (h : sendLoop timeout data 0 [] replies = some o) :
    Counted data o ∧ (o.ret < 0 → o.sent = []) := by
  cases replies with
  | nil => cases h
  | cons reply replies =>
      obtain ⟨hle, hlt⟩ := iotSocketSend_le reply data.length
      simp only [sendLoop, Nat.sub_zero, List.drop_zero, List.nil_append, Nat.zero_add] at h
      generalize iotSocketSend reply data.length = rc at h hle hlt
      rcases lt_or_ge rc 0 with hneg | hpos
      · have herror := iotSocketErrorToMbed_neg hneg
        rw [if_neg (by omega)] at h
        obtain rfl := Option.some.inj h
        have hnone : data.take rc.toNat = [] := by
          rw [Int.toNat_of_nonpos (by omega), List.take_zero]
        rw [hnone]
        exact ⟨⟨List.nil_prefix, fun hx => absurd hx (by simpa using herror)⟩, fun _ => rfl⟩
      · rw [iotSocketErrorToMbed_of_nonneg hpos, if_pos hpos, if_neg htimeout, ite_self] at h
        obtain rfl := Option.some.inj h
        have hret : toInt32 rc.toNat = rc := by
          rw [toInt32_of_lt (by omega), Int.toNat_of_nonneg hpos]
        have hlen : ((data.take rc.toNat).length : ℤ) = rc := by
          rw [List.length_take]
          omega
        rw [hret]
        refine ⟨⟨List.take_prefix _ _, fun _ => hlen.symm⟩, fun hx => ?_⟩
        exact absurd hx (by simpa using hpos)

theorem counted_nonblocking {data : List β} (hfits : data.length < 2 ^ 32) {replies : List ℤ}
    {o : Outcome β} (h : sendLoop 0 data 0 [] replies = some o) :
    Counted data o ∧ ((o.ret < 0 → o.sent = []) ↔
      taken (results data.length replies) = 0 ∨ (∀ rc ∈ results data.length replies, 0 ≤ rc) ∧
        (taken (results data.length replies) = data.length → data.length < 2 ^ 31)) := by
  obtain ⟨hsent, hend⟩ := sendLoop_nonblocking (Nat.zero_le _) h
  rw [List.nil_append, List.drop_zero, Nat.sub_zero] at hsent
  simp only [Nat.sub_zero, Nat.zero_add] at hend
  have hle := taken_results_le data.length replies
  generalize results data.length replies = rcs at hsent hend hle ⊢
  have hfront : o.sent <+: data := hsent ▸ List.take_prefix _ _
  rcases hend with ⟨hall, hsum, hret⟩ | ⟨⟨rc, hmem, hneg⟩, hret⟩
  · have hwhole : o.sent = data := by rw [hsent, hsum, List.take_length]
    rcases Nat.lt_or_ge data.length (2 ^ 31) with hlt | hge
    · rw [toInt32_of_lt hlt] at hret
      refine ⟨⟨hfront, fun _ => by rw [hret, hwhole]⟩, fun _ => .inr ⟨hall, fun _ => hlt⟩, ?_⟩
      intro _ hx
      omega
    · have hneg := toInt32_neg hge hfits
      rw [← hret] at hneg
      refine ⟨⟨hfront, fun hx => by omega⟩, ?_, ?_⟩
      · intro hx
        have hnil : data = [] := hwhole.symm.trans (hx hneg)
        rw [hnil] at hge
        exact absurd hge (by simp)
      · rintro (hx | ⟨-, hx⟩)
        · omega
        · have := hx hsum
          omega
  · have hnone : taken rcs = 0 → o.sent = [] := fun hx => by rw [hsent, hx, List.take_zero]
    refine ⟨⟨hfront, fun hx => by omega⟩, ?_, ?_⟩
    · intro hx
      left
      have hnil := congrArg List.length (hx hret)
      rw [hsent, List.length_take, List.length_nil] at hnil
      omega
    · rintro (hx | ⟨hx, -⟩)
      · exact fun _ => hnone hx
      · have := hx rc hmem
        omega

theorem Call.counted (c : Call β) {o : Outcome β} (h : c.outcome = some o) :
    Counted c.data.bytes o ∧ ((o.ret < 0 → o.sent = []) ↔ c.Whole) := by
  simp only [Call.outcome, send] at h
  split at h
  · next hid =>
      cases h
      have hneg : ¬ 0 ≤ nsapiErrorNoSocket := by decide
      exact ⟨⟨List.nil_prefix, fun hx => absurd hx hneg⟩, fun _ => .inl hid, fun _ _ => rfl⟩
  · next hid =>
      by_cases htimeout : c.socket.timeout = 0
      · rw [htimeout] at h
        obtain ⟨hcounted, hiff⟩ := counted_nonblocking c.data.fits h
        refine ⟨hcounted, hiff.trans ?_⟩
        simp only [Call.Whole, hid, htimeout, ne_eq, not_true_eq_false, false_or]
      · obtain ⟨hcounted, herror⟩ := counted_once c.data.fits htimeout h
        exact ⟨hcounted, fun _ => .inr (.inl htimeout), fun _ => herror⟩

theorem Call.whole_of_unfinished (c : Call β) (h : c.outcome = none) : c.Whole := by
  simp only [Call.outcome, send] at h
  split at h
  · next hid => exact .inl hid
  · by_cases htimeout : c.socket.timeout = 0
    · rw [htimeout] at h
      obtain ⟨hall, hend⟩ := sendLoop_unfinished h
      simp only [Nat.sub_zero, Nat.zero_add] at hall hend
      refine .inr (.inr (.inr ⟨hall, fun hx => ?_⟩))
      have := hend hx
      omega
    · exact .inr (.inl htimeout)

/-! ## Sequences of calls -/

theorem accounted_iff (calls : List (Call β)) : Accounted calls ↔ ∀ c ∈ calls, c.Whole := by
  constructor
  · intro h c hc
    cases ho : c.outcome with
    | none => exact c.whole_of_unfinished ho
    | some o => exact (c.counted ho).2.mp (h.error c hc o ho)
  · intro h
    have herror : ∀ c ∈ calls, ∀ o, c.outcome = some o → o.ret < 0 → o.sent = [] :=
      fun c hc o ho => (c.counted ho).2.mpr (h c hc)
    refine ⟨?_, fun c _ o ho => (c.counted ho).1.front, herror⟩
    refine congrArg List.sum (List.map_congr_left fun o ho => ?_)
    obtain ⟨c, hc, ho⟩ := List.mem_filterMap.mp ho
    rcases Int.lt_or_le o.ret 0 with hneg | hpos
    · rw [herror c hc o ho hneg, max_eq_right (Int.le_of_lt hneg)]
      rfl
    · rw [max_eq_left hpos, (c.counted ho).1.count hpos]

/-! ## The caller in Mbed TLS -/

/-- The bytes accepted and the bytes left are the record: none is sent twice or lost. -/
def Flush.Exact (message : Buffer β) (s : Flush β) : Prop := s.sent ++ s.left.bytes = message.bytes

/-- The attempt is a whole call. -/
def Flush.Whole (s : Flush β) (attempt : Socket × List ℤ) : Prop :=
  Call.Whole ⟨attempt.1, s.left, attempt.2⟩

theorem flush_outcome {s t : Flush β} {attempt : Socket × List ℤ} (h : flush s attempt = some t) :
    ∃ o, Call.outcome ⟨attempt.1, s.left, attempt.2⟩ = some o ∧ t.sent = s.sent ++ o.sent ∧
      t.left.bytes = if 0 ≤ o.ret then s.left.bytes.drop o.ret.toNat else s.left.bytes := by
  obtain ⟨o', ho', h⟩ := Option.bind_eq_some_iff.mp h
  obtain ⟨o, ho, rfl⟩ := Option.map_eq_some_iff.mp ho'
  refine ⟨o, ho, ?_⟩
  by_cases hblock : o.ret = nsapiErrorWouldBlock
  · have hwant : ¬ 0 ≤ mbedtlsErrSslWantWrite := by decide
    have hneg : ¬ 0 ≤ o.ret := by rw [hblock]; decide
    rw [if_pos hblock, if_neg hwant, if_pos rfl] at h
    obtain rfl := Option.some.inj h
    exact ⟨rfl, (if_neg hneg).symm⟩
  · rw [if_neg hblock] at h
    split at h
    · next hpos =>
        obtain rfl := Option.some.inj h
        exact ⟨rfl, (if_pos hpos).symm⟩
    · next hneg =>
        obtain ⟨-, h⟩ := Option.ite_none_right_eq_some.mp h
        obtain rfl := Option.some.inj h
        exact ⟨rfl, (if_neg hneg).symm⟩

theorem flush_exact_iff {message : Buffer β} {s t : Flush β} {attempt : Socket × List ℤ}
    (hs : s.Exact message) (h : flush s attempt = some t) :
    t.Exact message ↔ s.Whole attempt := by
  obtain ⟨o, ho, hsent, hleft⟩ := flush_outcome h
  obtain ⟨hcounted, hwhole⟩ := Call.counted _ ho
  rw [Flush.Whole, ← hwhole, Flush.Exact, hsent, hleft, ← hs, List.append_assoc,
    List.append_cancel_left_eq]
  split
  · next hpos =>
      have hcount := hcounted.count hpos
      have hdrop : o.sent ++ s.left.bytes.drop o.ret.toNat = s.left.bytes := by
        rw [hcount, Int.toNat_natCast]
        exact List.prefix_iff_eq_append.mp hcounted.front
      exact ⟨fun _ hx => absurd hx (by omega), fun _ => hdrop⟩
  · next hneg =>
      have herror : o.ret < 0 := by omega
      rw [List.append_left_eq_self]
      exact ⟨fun hx _ => hx, fun hx => hx herror⟩

/-- For every sequence of calls and every answers of the stack, the calls are accounted
exactly when each of them is whole; and a caller that repeats a buffer after a blocked call
sends each byte once exactly as long as its calls are whole. -/
theorem accounted_iff_whole (calls : List (Call β)) (message : Buffer β)
    (attempts : List (Socket × List ℤ)) :
    (Accounted calls ↔ ∀ c ∈ calls, c.Whole) ∧
      (Always flush (Flush.Exact message) ⟨message, []⟩ attempts ↔
        Meets flush Flush.Whole ⟨message, []⟩ attempts) := by
  refine ⟨accounted_iff calls, ?_⟩
  have hinit : Flush.Exact message ⟨message, []⟩ := List.nil_append _
  exact always_iff_meets (Flush.Exact message)
    (fun _ _ _ hs hok h => (flush_exact_iff hs h).mpr hok) (fun _ hs => hs)
    (fun _ _ _ hs h hbad hx => hbad ((flush_exact_iff hs h).mp hx)) hinit attempts

/-- Two bytes on a non-blocking socket: the stack accepts one and then has no room. -/
def cutShort : Call Bool :=
  ⟨⟨0, 0⟩, ⟨[true, false], by decide⟩, [1, iotSocketEagain]⟩

theorem cutShort_not_accounted :
    ¬ ∀ calls : List (Call Bool), Accounted calls := by
  intro h
  have hsent := (h [cutShort]).error cutShort (List.mem_singleton_self _) _ rfl (by decide)
  exact absurd hsent (by decide)

end OpenIotSdk.Netsocket
