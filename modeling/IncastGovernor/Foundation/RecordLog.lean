import Mathlib.Data.List.Basic

/-! Logs of framed records. A decoder takes one record off the front of a string; a
replay takes records until the string ends or the decoder stops it. What was replayed
does not depend on what comes behind it, so a log that ends with a whole record can be
appended to, and a torn record at its end hides none before it. -/

namespace IncastGovernor.Foundation

variable {α β ε : Type*}

/-- A decoder of a framed record: it gives the record and a shorter rest, and reads
nothing of the rest. -/
structure FramedDecoder (α β ε : Type*) where
  decode : List β → Except ε (α × List β)
  shorter : ∀ {bytes r rest}, decode bytes = .ok (r, rest) → rest.length < bytes.length
  local_append : ∀ {bytes r rest}, decode bytes = .ok (r, rest) →
    ∀ more, decode (bytes ++ more) = .ok (r, rest ++ more)

namespace FramedDecoder

variable (d : FramedDecoder α β ε)

/-- The records of a string, one by one; with the error and the bytes it was met at,
where the decoder stops. -/
def replay : ℕ → List β → List α × Option (ε × List β)
  | 0, _ => ([], none)
  | fuel + 1, bytes =>
    if bytes.isEmpty then ([], none)
    else
      match d.decode bytes with
      | .error error => ([], some (error, bytes))
      | .ok (record, rest) =>
        let later := replay fuel rest
        (record :: later.1, later.2)

/-- Every record is at least one byte long. -/
def records (bytes : List β) : List α × Option (ε × List β) := d.replay bytes.length bytes

theorem replay_nil (fuel : ℕ) : d.replay fuel [] = ([], none) := by
  cases fuel <;> rfl

@[simp] theorem records_nil : d.records [] = ([], none) := rfl

/-- The replay does not depend on the fuel, if there is one for every byte. -/
theorem replay_fuel {fuel fuel' : ℕ} {bytes : List β} (h : bytes.length ≤ fuel)
    (h' : bytes.length ≤ fuel') : d.replay fuel bytes = d.replay fuel' bytes := by
  induction fuel generalizing fuel' bytes with
  | zero =>
    obtain rfl := List.length_eq_zero_iff.mp (Nat.le_zero.mp h)
    rw [replay_nil, replay_nil]
  | succ fuel ih =>
    cases bytes with
    | nil => rw [replay_nil, replay_nil]
    | cons b bs =>
      obtain ⟨fuel', rfl⟩ : ∃ n, fuel' = n + 1 := ⟨fuel' - 1, by rw [List.length_cons] at h'; omega⟩
      unfold replay
      cases hd : d.decode (b :: bs) with
      | error error => rfl
      | ok result =>
        have hlt : result.2.length < (b :: bs).length := d.shorter hd
        simp only [List.isEmpty_cons, Bool.false_eq_true, if_false]
        rw [@ih fuel' result.2 (by omega) (by omega)]

theorem records_ok {bytes rest : List β} {record : α} (h : d.decode bytes = .ok (record, rest)) :
    d.records bytes = (record :: (d.records rest).1, (d.records rest).2) := by
  have hlt := d.shorter h
  cases bytes with
  | nil => cases hlt
  | cons b bs =>
    have hrest : rest.length ≤ bs.length := Nat.le_of_lt_succ hlt
    show d.replay (bs.length + 1) (b :: bs) = _
    unfold replay
    simp only [List.isEmpty_cons, Bool.false_eq_true, if_false, h]
    rw [d.replay_fuel hrest (Nat.le_refl _)]
    rfl

theorem records_error {bytes : List β} {error : ε} (hne : bytes ≠ [])
    (h : d.decode bytes = .error error) : d.records bytes = ([], some (error, bytes)) := by
  cases bytes with
  | nil => exact absurd rfl hne
  | cons b bs =>
    show d.replay (bs.length + 1) (b :: bs) = _
    unfold replay
    simp only [List.isEmpty_cons, Bool.false_eq_true, if_false, h]

/-- A log that ends with a whole record is replayed in front of what is appended to it. -/
theorem records_append {bytes : List β} (h : (d.records bytes).2 = none) (more : List β) :
    d.records (bytes ++ more) =
      ((d.records bytes).1 ++ (d.records more).1, (d.records more).2) := by
  induction hn : bytes.length using Nat.strongRecOn generalizing bytes with
  | ind n ih =>
    by_cases hne : bytes = []
    · subst hne
      rfl
    · cases hd : d.decode bytes with
      | error error =>
        rw [d.records_error hne hd] at h
        cases h
      | ok result =>
        obtain ⟨record, rest⟩ := result
        rw [d.records_ok hd] at h
        have hrest := ih rest.length (hn ▸ d.shorter hd) h rfl
        rw [d.records_ok (d.local_append hd more), d.records_ok hd, hrest, List.cons_append]

/-- Every record replayed takes a byte, and the replay stops with some left. -/
theorem records_length_le (bytes : List β) :
    (d.records bytes).1.length + ((d.records bytes).2.elim 0 fun stop => stop.2.length) ≤
        bytes.length ∧
      ∀ stop, (d.records bytes).2 = some stop → stop.2 ≠ [] := by
  induction hn : bytes.length using Nat.strongRecOn generalizing bytes with
  | ind n ih =>
    by_cases hne : bytes = []
    · subst hne
      exact ⟨Nat.zero_le _, fun _ h => by cases h⟩
    · cases hd : d.decode bytes with
      | error error =>
        rw [d.records_error hne hd]
        refine ⟨?_, fun stop h => Option.some.inj h ▸ hne⟩
        show 0 + bytes.length ≤ n
        omega
      | ok result =>
        obtain ⟨record, rest⟩ := result
        have hlt := d.shorter hd
        obtain ⟨hlen, hstop⟩ := ih rest.length (hn ▸ hlt) rest rfl
        rw [d.records_ok hd]
        refine ⟨?_, hstop⟩
        show (d.records rest).1.length + 1 +
          ((d.records rest).2.elim 0 fun stop => stop.2.length) ≤ n
        omega

/-- Of a record that is cut nothing is decoded. -/
theorem decode_torn {bytes : List β} {record : α} (h : d.decode bytes = .ok (record, [])) {k : ℕ}
    (hk : k < bytes.length) : ∃ error, d.decode (bytes.take k) = .error error := by
  cases hd : d.decode (bytes.take k) with
  | error error => exact ⟨error, rfl⟩
  | ok result =>
    -- the whole record would leave a rest
    have hall := d.local_append hd (bytes.drop k)
    rw [List.take_append_drop, h] at hall
    have hrest := (Prod.mk.inj (Except.ok.inj hall)).2
    have hdrop := (List.append_eq_nil_iff.mp hrest.symm).2
    rw [List.drop_eq_nil_iff] at hdrop
    omega

/-- Of a single record that is cut, nothing or all is replayed. -/
theorem records_take {bytes : List β} {record : α} (h : d.decode bytes = .ok (record, []))
    (k : ℕ) :
    (d.records (bytes.take k)).1 = [] ∨ (d.records (bytes.take k)).1 = [record] := by
  by_cases hk : k < bytes.length
  · refine Or.inl ?_
    by_cases hne : bytes.take k = []
    · rw [hne, records_nil]
    · obtain ⟨error, he⟩ := d.decode_torn h hk
      rw [d.records_error hne he]
  · refine Or.inr ?_
    rw [List.take_of_length_le (Nat.not_lt.mp hk), d.records_ok h, records_nil]

/-! ### A cut log -/

section Log

variable {d} (encode : α → List β)

/-- The records one behind the other. -/
def log (records : List α) : List β := records.flatMap encode

/-- Whole records are replayed before what is behind them. -/
theorem records_log_append {encode : α → List β} {records : List α}
    (henc : ∀ record ∈ records, ∀ rest, d.decode (encode record ++ rest) = .ok (record, rest))
    (more : List β) :
    d.records (log encode records ++ more) =
      (records ++ (d.records more).1, (d.records more).2) := by
  induction records with
  | nil => rfl
  | cons record rest ih =>
    have hrest := ih fun r hr => henc r (List.mem_cons_of_mem record hr)
    rw [log, List.flatMap_cons, List.append_assoc,
      d.records_ok (henc record List.mem_cons_self _), ← log, hrest, List.cons_append]

/-- A record that cannot be decoded stops the replay, if none before it does. -/
theorem records_log_stopped {encode : α → List β} {records : List α}
    (hne : ∀ record, encode record ≠ [])
    (henc : ∀ record ∈ records, (∀ rest, d.decode (encode record ++ rest) = .ok (record, rest)) ∨
      ∀ rest, ∃ error, d.decode (encode record ++ rest) = .error error)
    (hbad : ∃ record ∈ records, ∃ rest error, d.decode (encode record ++ rest) = .error error)
    (more : List β) : (d.records (log encode records ++ more)).2 ≠ none := by
  induction records with
  | nil =>
    obtain ⟨record, hm, -⟩ := hbad
    cases hm
  | cons first rest ih =>
    rw [log, List.flatMap_cons, List.append_assoc, ← log]
    rcases henc first List.mem_cons_self with hok | herror
    · rw [d.records_ok (hok _)]
      refine ih (fun r hr => henc r (List.mem_cons_of_mem first hr)) ?_
      obtain ⟨record, hm, behind, error, hbad⟩ := hbad
      rcases List.mem_cons.mp hm with rfl | hm
      · rw [hok] at hbad
        cases hbad
      · exact ⟨record, hm, behind, error, hbad⟩
    · obtain ⟨error, he⟩ := herror (log encode rest ++ more)
      rw [d.records_error (List.append_ne_nil_of_left_ne_nil (hne first) _) he]
      exact Option.some_ne_none _

/-- The number of records that lie wholly in the first bytes of their log. -/
def wholeRecords : ℕ → List α → ℕ
  | _, [] => 0
  | room, record :: rest =>
    if (encode record).length ≤ room then wholeRecords (room - (encode record).length) rest + 1
    else 0

@[simp] theorem log_cons (record : α) (rest : List α) :
    log encode (record :: rest) = encode record ++ log encode rest := List.flatMap_cons

theorem wholeRecords_le (room : ℕ) (records : List α) :
    wholeRecords encode room records ≤ records.length := by
  induction records generalizing room with
  | nil => exact Nat.le_refl 0
  | cons record rest ih =>
    unfold wholeRecords
    split_ifs
    · exact Nat.succ_le_succ (ih _)
    · exact Nat.zero_le _

/-- The whole records end within the room. -/
theorem log_take_wholeRecords_le (room : ℕ) (records : List α) :
    (log encode (records.take (wholeRecords encode room records))).length ≤ room := by
  induction records generalizing room with
  | nil => exact Nat.zero_le _
  | cons record rest ih =>
    unfold wholeRecords
    split_ifs with h
    · rw [List.take_succ_cons, log_cons, List.length_append]
      have hrest := ih (room - (encode record).length)
      omega
    · exact Nat.zero_le _

/-- A record that ends within the room is one of the whole ones. -/
theorem le_wholeRecords {room m : ℕ} {records : List α} (hm : m ≤ records.length)
    (h : (log encode (records.take m)).length ≤ room) : m ≤ wholeRecords encode room records := by
  induction records generalizing room m with
  | nil => exact hm
  | cons record rest ih =>
    cases m with
    | zero => exact Nat.zero_le _
    | succ m =>
      rw [List.take_succ_cons, log_cons, List.length_append] at h
      unfold wholeRecords
      rw [if_pos (by omega)]
      exact Nat.succ_le_succ (ih (Nat.le_of_succ_le_succ hm) (by omega))

/-- What is replayed of a cut log: the whole records. The cut lies behind one of them, or it
leaves a part of the next on which the replay stops. -/
inductive CutBy (d : FramedDecoder α β ε) (encode : α → List β) (records : List α) (cut : ℕ) :
    List α × Option (ε × List β) → Prop
  | whole (length : (log encode (records.take (wholeRecords encode cut records))).length = cut) :
    CutBy d encode records cut (records.take (wholeRecords encode cut records), none)
  | torn (record : α) (mem : record ∈ records) (k : ℕ) (error : ε) (pos : 0 < k)
    (lt : k < (encode record).length)
    (length : (log encode (records.take (wholeRecords encode cut records))).length + k = cut)
    (stopped : d.decode ((encode record).take k) = .error error) :
    CutBy d encode records cut
      (records.take (wholeRecords encode cut records), some (error, (encode record).take k))

variable {encode}

theorem CutBy.cons {record : α} {rest : List α} {cut : ℕ} (hfits : (encode record).length ≤ cut)
    {replay : List α × Option (ε × List β)}
    (h : CutBy d encode rest (cut - (encode record).length) replay) :
    CutBy d encode (record :: rest) cut (record :: replay.1, replay.2) := by
  have hwhole : (record :: rest).take (wholeRecords encode cut (record :: rest)) =
      record :: rest.take (wholeRecords encode (cut - (encode record).length) rest) := by
    rw [wholeRecords, if_pos hfits, List.take_succ_cons]
  have hlog : (log encode ((record :: rest).take (wholeRecords encode cut (record :: rest)))).length =
      (encode record).length + (log encode
        (rest.take (wholeRecords encode (cut - (encode record).length) rest))).length := by
    rw [hwhole, log_cons, List.length_append]
  cases h with
  | whole hlen =>
    rw [← hwhole]
    exact CutBy.whole (by omega)
  | torn r hr k error hk hlt hlen hd =>
    rw [← hwhole]
    exact CutBy.torn r (List.mem_cons_of_mem record hr) k error hk hlt (by omega) hd

theorem CutBy.first {record : α} {rest : List α} {cut : ℕ} (hcut : cut < (encode record).length)
    (hone : d.decode (encode record) = .ok (record, [])) :
    CutBy d encode (record :: rest) cut (d.records ((encode record).take cut)) := by
  have hwhole : (record :: rest).take (wholeRecords encode cut (record :: rest)) = [] := by
    rw [wholeRecords, if_neg (Nat.not_le.mpr hcut), List.take_zero]
  have hlog : (log encode ((record :: rest).take
      (wholeRecords encode cut (record :: rest)))).length = 0 := by
    rw [hwhole]
    rfl
  by_cases hzero : cut = 0
  · subst hzero
    rw [List.take_zero, records_nil, ← hwhole]
    exact CutBy.whole hlog
  · obtain ⟨error, herror⟩ := d.decode_torn hone hcut
    have hne : (encode record).take cut ≠ [] := by
      intro hnil
      have hlen := congrArg List.length hnil
      rw [List.length_take, List.length_nil] at hlen
      omega
    rw [d.records_error hne herror, ← hwhole]
    exact CutBy.torn record List.mem_cons_self cut error (Nat.pos_of_ne_zero hzero) hcut (by omega)
      herror

/-- A log cut anywhere replays its whole records. -/
theorem records_log_take {records : List α}
    (henc : ∀ record ∈ records, ∀ rest, d.decode (encode record ++ rest) = .ok (record, rest))
    {cut : ℕ} (hcut : cut ≤ (log encode records).length) :
    CutBy d encode records cut (d.records ((log encode records).take cut)) := by
  induction records generalizing cut with
  | nil =>
    obtain rfl := Nat.le_zero.mp hcut
    exact CutBy.whole rfl
  | cons record rest ih =>
    have hdecode := henc record List.mem_cons_self
    rw [log_cons, List.length_append] at hcut
    rw [log_cons]
    by_cases hfits : (encode record).length ≤ cut
    · rw [List.take_append, List.take_of_length_le hfits, d.records_ok (hdecode _)]
      apply CutBy.cons hfits
      exact ih (fun r hr => henc r (List.mem_cons_of_mem record hr)) (by omega)
    · rw [List.take_append_of_le_length (by omega)]
      have hone := hdecode []
      rw [List.append_nil] at hone
      exact CutBy.first (Nat.not_le.mp hfits) hone

end Log

end FramedDecoder

end IncastGovernor.Foundation
