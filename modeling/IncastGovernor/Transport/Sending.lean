import IncastGovernor.Foundation.ChunkedWrite
import IncastGovernor.Transport.Channel

/-! Frames sent over a connection that takes them in chunks, and what becomes of them at the other
end. Whatever the connection takes of a frame, and wherever it fails, the peer receives the frames
whose sending succeeded, in order, and after them the end of the stream. -/

namespace IncastGovernor

open Codec Foundation

/-- The sending end of a connection: what has gone out, and what comes of the next
transmissions. One takes a number of bytes, at most as many as it is handed, or fails; behind the
last of them all take what they are handed. -/
structure Outgoing where
  valid : Bool := true
  sent : Text := []
  transmissions : List (Option ℕ) := []

namespace Outgoing

/-- The largest transmission, 1 MiB. -/
def kMaxTransmission : ℕ := 1048576

/-- What the system takes of the bytes; none if it fails. -/
def sendSome (connection : Outgoing) (bytes : Text) : Option ℕ × Outgoing :=
  let chunk := min bytes.length kMaxTransmission
  match connection.transmissions with
  | none :: later => (none, { connection with transmissions := later })
  | some given :: later =>
    let taken := min chunk given
    (some taken,
      { connection with sent := connection.sent ++ bytes.take taken, transmissions := later })
  | [] => (some chunk, { connection with sent := connection.sent ++ bytes.take chunk })

def sendAll (connection : Outgoing) (data : Text) : Status × Outgoing :=
  if ¬connection.valid then (fail .closed "connection is closed", connection)
  else drain sendSome ⟨.ioFailure, ascii "send failed"⟩ connection data

/-- A connection all of whose transmissions take something. -/
def accepting (connection : Outgoing) : Prop :=
  connection.valid = true ∧ ∀ taken ∈ connection.transmissions, ∃ count, taken = some (count + 1)

end Outgoing

/-- The sending side of a channel. -/
structure SendingChannel where
  connection : Outgoing := {}
  framesSent : UInt64 := 0

namespace SendingChannel

def send (channel : SendingChannel) (frame : Frame) : Status × SendingChannel :=
  if frame.payload.length > kMaxFrameBytes then
    (fail .oversizedInput "frame payload exceeds the supported bound", channel)
  else
    match encodeFrame frame with
    | .error error => (.error error, channel)
    | .ok bytes =>
      match channel.connection.sendAll bytes with
      | (.error error, connection) => (.error error, { channel with connection })
      | (.ok (), connection) =>
        (.ok (), { channel with connection, framesSent := channel.framesSent + 1 })

/-- Frames sent one after the other up to the first that fails, where the sender gives the
connection up, with the frames that were sent. -/
def sendMany : List Frame → SendingChannel → List Frame × SendingChannel
  | [], channel => ([], channel)
  | frame :: later, channel =>
    match channel.send frame with
    | (.error _, next) => ([], next)
    | (.ok (), next) =>
      let rest := sendMany later next
      (frame :: rest.1, rest.2)

end SendingChannel

/-! ### Transmissions -/

namespace Outgoing

theorem accepts_chunks : AcceptsChunks sendSome sent where
  some := by
    intro connection next bytes count h
    unfold sendSome at h
    simp only at h
    split at h <;> cases h <;> rfl
  none := by
    intro connection next bytes h
    unfold sendSome at h
    simp only at h
    split at h <;> cases h
    rfl

/-- An accepting connection takes a part of whatever it is handed. -/
theorem accepts : Accepts sendSome accepting where
  takes := by
    rintro connection bytes ⟨hvalid, hall⟩ hne
    have hpos : 0 < bytes.length := List.length_pos_iff.mpr hne
    have hchunk : 0 < min bytes.length kMaxTransmission := Nat.lt_min.mpr ⟨hpos, by decide⟩
    unfold sendSome
    cases ht : connection.transmissions with
    | nil =>
      obtain ⟨count, hcount⟩ := Nat.exists_eq_succ_of_ne_zero (Nat.ne_of_gt hchunk)
      simp only [hcount]
      exact ⟨count, _, rfl, hvalid, fun taken hm => by cases hm⟩
    | cons first later =>
      rw [ht] at hall
      obtain ⟨given, rfl⟩ := hall first List.mem_cons_self
      have htaken : 0 < min (min bytes.length kMaxTransmission) (given + 1) :=
        Nat.lt_min.mpr ⟨hchunk, Nat.succ_pos given⟩
      obtain ⟨count, hcount⟩ := Nat.exists_eq_succ_of_ne_zero (Nat.ne_of_gt htaken)
      simp only [hcount]
      exact ⟨count, _, rfl, hvalid, fun taken hm => hall taken (List.mem_cons_of_mem _ hm)⟩

end Outgoing

/-! ### Frames -/

namespace SendingChannel

/-- A frame that is sent goes out whole; of one that fails a proper front does, or nothing. -/
inductive SentBy (channel : SendingChannel) (frame : Frame) : Status × SendingChannel → Prop
  | whole (bytes : Text) (encoded : encodeFrame frame = .ok bytes) (next : SendingChannel)
      (gone : next.connection.sent = channel.connection.sent ++ bytes)
      (counted : next.framesSent = channel.framesSent + 1) : SentBy channel frame (.ok (), next)
  | refused (error : Error) : SentBy channel frame (.error error, channel)
  | cut (bytes front : Text) (encoded : encodeFrame frame = .ok bytes) (next : SendingChannel)
      (error : Error) (gone : next.connection.sent = channel.connection.sent ++ front)
      (isFront : front <+: bytes) (proper : front.length < bytes.length)
      (counted : next.framesSent = channel.framesSent) : SentBy channel frame (.error error, next)

theorem send_by (channel : SendingChannel) (frame : Frame) :
    channel.SentBy frame (channel.send frame) := by
  unfold send
  by_cases hlong : frame.payload.length > kMaxFrameBytes
  · rw [if_pos hlong]
    exact .refused _
  rw [if_neg hlong]
  cases he : encodeFrame frame with
  | error error => exact .refused error
  | ok bytes =>
    simp only
    unfold Outgoing.sendAll
    by_cases hvalid : channel.connection.valid = true
    · rw [if_neg (not_not.mpr hvalid)]
      obtain ⟨front, hgone, hfront, hend⟩ := @AcceptsChunks.drain _ _ Error Outgoing.sendSome
        ⟨.ioFailure, ascii "send failed"⟩ _ Outgoing.accepts_chunks bytes channel.connection
      cases hd : drain Outgoing.sendSome (⟨.ioFailure, ascii "send failed"⟩ : Error)
          channel.connection bytes with
      | mk status connection =>
        rw [hd] at hgone hend
        rcases hend with ⟨rfl, rfl⟩ | ⟨rfl, hproper⟩
        · exact .whole front he _ hgone rfl
        · exact .cut bytes front he _ _ hgone hfront hproper rfl
    · rw [if_pos hvalid]
      exact .refused _

/-- What has gone out behind frames that are sent: the frames, and the front of the one that
failed. -/
theorem sendMany_gone (frames : List Frame) (channel : SendingChannel) : ∃ encoded front,
    (sendMany frames channel).1.mapM encodeFrame = .ok encoded ∧
      (sendMany frames channel).2.connection.sent =
        channel.connection.sent ++ (encoded.flatten ++ front) ∧
      (sendMany frames channel).2.framesSent =
        channel.framesSent + UInt64.ofNat (sendMany frames channel).1.length ∧
      (sendMany frames channel).1 <+: frames ∧
      (front = [] ∨ ∃ frame bytes, encodeFrame frame = .ok bytes ∧ front <+: bytes ∧
        front.length < bytes.length) := by
  induction frames generalizing channel with
  | nil => exact ⟨[], [], rfl, by simp [sendMany], by simp [sendMany], List.prefix_rfl, Or.inl rfl⟩
  | cons frame later ih =>
    have hby := channel.send_by frame
    rw [sendMany]
    cases hs : channel.send frame with
    | mk status next =>
      rw [hs] at hby
      cases hby with
      | refused error =>
        exact ⟨[], [], rfl, by simp, by simp, List.nil_prefix, Or.inl rfl⟩
      | cut bytes front encoded _ error gone isFront proper counted =>
        exact ⟨[], front, rfl, by simpa using gone, by simpa using counted, List.nil_prefix,
          Or.inr ⟨frame, bytes, encoded, isFront, proper⟩⟩
      | whole bytes encoded _ gone counted =>
        obtain ⟨rest, front, hrest, hgone, hcount, hfirst, hfront⟩ := ih next
        refine ⟨bytes :: rest, front, ?_, ?_, ?_, ?_, hfront⟩
        · simp only [List.mapM_cons, encoded, hrest]
          rfl
        · simp only
          rw [hgone, gone, List.flatten_cons]
          simp only [List.append_assoc]
        · simp only [List.length_cons]
          rw [hcount, counted, UInt64.ofNat_add, UInt64.add_assoc, UInt64.add_comm 1]
          rfl
        · exact List.cons_prefix_cons.mpr ⟨rfl, hfirst⟩

/-- An accepting connection takes every frame that is not too long. -/
theorem sendMany_all (frames : List Frame) (channel : SendingChannel)
    (h : channel.connection.accepting)
    (hlen : ∀ frame ∈ frames, frame.payload.length ≤ kMaxFrameBytes) :
    (sendMany frames channel).1 = frames := by
  induction frames generalizing channel with
  | nil => rfl
  | cons frame later ih =>
    have hshort : ¬frame.payload.length > kMaxFrameBytes :=
      Nat.not_lt.mpr (hlen frame List.mem_cons_self)
    obtain ⟨bytes, hbytes⟩ : ∃ bytes, encodeFrame frame = .ok bytes :=
      ⟨_, encodeFrame_eq_ok.mpr ⟨Nat.not_lt.mp hshort, rfl⟩⟩
    obtain ⟨hok, hready⟩ := @Accepts.drain _ _ Error Outgoing.sendSome
      ⟨.ioFailure, ascii "send failed"⟩ _ Outgoing.accepts bytes _ h
    have hsend : channel.send frame =
        (.ok (), { connection := (drain Outgoing.sendSome (⟨.ioFailure, ascii "send failed"⟩ : Error)
                     channel.connection bytes).2
                   framesSent := channel.framesSent + 1 }) := by
      unfold send Outgoing.sendAll
      rw [if_neg hshort, hbytes]
      simp only [h.1, not_true_eq_false, if_false]
      rw [← Prod.mk.eta (p := drain _ _ _ _), hok]
    rw [sendMany, hsend]
    simp only
    rw [ih _ hready fun frame hm => hlen frame (List.mem_cons_of_mem _ hm)]

end SendingChannel

/-! ### Both ends -/

namespace FramedChannel

variable {channel : FramedChannel}

/-- The front of an encoded frame: its reception ends where it does. -/
theorem receive_front (h : channel.connection.delivering) {frame : Frame} {bytes : Text}
    (he : encodeFrame frame = .ok bytes) (hfront : channel.connection.pending <+: bytes)
    (hproper : channel.connection.pending.length < bytes.length) :
    (channel.receive.1 = fail .closed "peer closed the connection" ∨
        channel.receive.1 = fail .truncatedInput "peer closed mid-frame") ∧
      channel.receive.2.connection.pending = [] ∧ channel.receive.2.connection.delivering := by
  by_cases hheader : channel.connection.pending.length < kFrameHeaderBytes
  · obtain ⟨hclosed, hrest⟩ := receive_closed h hheader
    exact ⟨Or.inl hclosed, hrest⟩
  · have hdecoded : decodeFrameHeader channel.connection.pending =
        .ok ({ frame with payload := [] }, frame.payload.length) := by
      rw [List.prefix_iff_eq_take.mp hfront,
        decodeFrameHeader_take (Nat.not_lt.mp hheader) hproper.le, decodeFrameHeader_encodeFrame he]
    rw [encodeFrame_length he] at hproper
    obtain ⟨htruncated, hrest⟩ := receive_truncated h hdecoded hproper
    exact ⟨Or.inr htruncated, hrest⟩

/-- The results that are frames. -/
def framesOf (results : List (Outcome Frame)) : List Frame :=
  results.flatMap fun result => result.toOption.toList

theorem receive_counts (channel : FramedChannel) :
    channel.receive.2.framesReceived =
      channel.framesReceived + UInt64.ofNat channel.receive.1.toOption.toList.length := by
  unfold receive
  split
  · exact (UInt64.add_zero _).symm
  · exact (UInt64.add_zero _).symm
  · split
    · exact (UInt64.add_zero _).symm
    · split
      · exact (UInt64.add_zero _).symm
      · exact (UInt64.add_zero _).symm
      · split_ifs
        · exact (UInt64.add_zero _).symm
        · rfl

theorem receiveMany_counts (count : ℕ) (channel : FramedChannel) :
    (receiveMany count channel).2.framesReceived =
      channel.framesReceived + UInt64.ofNat (framesOf (receiveMany count channel).1).length := by
  induction count generalizing channel with
  | zero => simp [receiveMany, framesOf]
  | succ count ih =>
    rw [receiveMany]
    simp only
    rw [ih, receive_counts, UInt64.add_assoc, ← UInt64.ofNat_add, ← List.length_append]
    rfl

theorem framesOf_sent (frames : List Frame) (ending : Error) (k : ℕ) :
    framesOf (frames.map .ok ++ .error ending ::
      List.replicate k (fail .closed "peer closed the connection")) = frames := by
  have hclosed : framesOf (List.replicate k (fail .closed "peer closed the connection")) = [] := by
    induction k with
    | zero => rfl
    | succ k ih => rw [List.replicate_succ]; exact ih
  have hframes : framesOf (frames.map .ok) = frames := by
    induction frames with
    | nil => rfl
    | cons frame frames ih => exact congrArg (frame :: ·) ih
  unfold framesOf at hclosed hframes ⊢
  rw [List.flatMap_append, List.flatMap_cons, hframes, hclosed]
  simp [Except.toOption]

/-- From one end of a connection to the other, whatever it takes of each transmission, wherever it
fails and however it delivers: the peer receives the frames that were sent, in order and each
once, and behind them the end of the stream, and the counts of the two ends agree. If no
transmission fails and no frame is too long, these are all the frames. -/
theorem sent_frames_received (frames : List Frame) (transmissions : List (Option ℕ))
    (sizes : List ℕ) :
    let sent := SendingChannel.sendMany frames { connection := { transmissions } }
    let received := fun k => receiveMany (sent.1.length + (k + 1))
      (ofStream sent.2.connection.sent (sizes.map some))
    sent.1 <+: frames ∧
      (∃ ending ∈ [Error.mk .closed (ascii "peer closed the connection"),
          ⟨.truncatedInput, ascii "peer closed mid-frame"⟩], ∀ k,
        (received k).1 = sent.1.map .ok ++ .error ending ::
          List.replicate k (fail .closed "peer closed the connection")) ∧
      (∀ k, (received k).2.framesReceived = sent.2.framesSent) ∧
      ((∀ taken ∈ transmissions, ∃ count, taken = some (count + 1)) →
        (∀ frame ∈ frames, frame.payload.length ≤ kMaxFrameBytes) → sent.1 = frames) := by
  intro sent received
  obtain ⟨encoded, front, hencoded, hgone, hcount, hfirst, hfront⟩ :=
    SendingChannel.sendMany_gone frames { connection := { transmissions } }
  change sent.1.mapM encodeFrame = .ok encoded at hencoded
  change sent.2.connection.sent = [] ++ (encoded.flatten ++ front) at hgone
  change sent.2.framesSent = 0 + UInt64.ofNat sent.1.length at hcount
  rw [List.nil_append] at hgone
  have hending : ∃ ending ∈ [Error.mk .closed (ascii "peer closed the connection"),
      ⟨.truncatedInput, ascii "peer closed mid-frame"⟩], ∀ k,
        (received k).1 = sent.1.map .ok ++ .error ending ::
          List.replicate k (fail .closed "peer closed the connection") := by
    obtain ⟨last, hready, hpending, hmany⟩ :=
      receiveMany_frames (ofStream_delivering sent.2.connection.sent sizes) hencoded hgone
    have hlast : ∃ ending ∈ [Error.mk .closed (ascii "peer closed the connection"),
        ⟨.truncatedInput, ascii "peer closed mid-frame"⟩], last.receive.1 = .error ending ∧
          last.receive.2.connection.pending = [] ∧ last.receive.2.connection.delivering := by
      rcases hfront with rfl | ⟨frame, bytes, hbytes, hbegins, hproper⟩
      · obtain ⟨hclosed, hrest⟩ := receive_closed hready (by rw [hpending]; decide)
        exact ⟨_, List.mem_cons_self, hclosed, hrest⟩
      · rw [← hpending] at hbegins hproper
        obtain ⟨hclosed | htruncated, hrest⟩ := receive_front hready hbytes hbegins hproper
        · exact ⟨_, List.mem_cons_self, hclosed, hrest⟩
        · exact ⟨_, List.mem_cons_of_mem _ List.mem_cons_self, htruncated, hrest⟩
    obtain ⟨ending, hmem, hreceived, hempty, hdone⟩ := hlast
    refine ⟨ending, hmem, fun k => ?_⟩
    show (receiveMany (sent.1.length + (k + 1)) _).1 = _
    rw [hmany, receiveMany]
    simp only [hreceived, receiveMany_closed hdone hempty]
  refine ⟨hfirst, hending, fun k => ?_, fun htakes hlen => ?_⟩
  · obtain ⟨ending, -, hall⟩ := hending
    rw [receiveMany_counts, hall k, framesOf_sent, hcount]
    rfl
  · exact SendingChannel.sendMany_all frames _ ⟨rfl, htakes⟩ hlen

end FramedChannel

end IncastGovernor
