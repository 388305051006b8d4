import IncastGovernor.Transport.Frame
import IncastGovernor.Foundation.ChunkedRead

/-! Frames received over a connection that delivers in chunks. A reception reads a header and
then the payload it announces, each in as many chunks as the connection makes of it; what it
gives is what the decoder of whole frames gives on the same bytes. -/

namespace IncastGovernor

open Codec Foundation

/-- The receiving end of a connection: what the peer has sent and is not yet received, and
what comes of the next receptions. One that succeeds gives a number of bytes, at least one if
there are any and at most as many as asked for; behind the last of them all give what was
asked for. -/
structure Connection where
  valid : Bool := true
  pending : Text := []
  receptions : List (Option ℕ) := []

namespace Connection

/-- The largest reception, 1 MiB. -/
def kMaxReception : ℕ := 1048576

/-- The bytes of a reception; none at the end of the stream. -/
def recvSome (connection : Connection) (size : ℕ) : Outcome Text × Connection :=
  if ¬connection.valid then (fail .closed "connection is closed", connection)
  else if size = 0 then (.ok [], connection)
  else
    let chunk := min size kMaxReception
    match connection.receptions with
    | none :: later => (fail .ioFailure "receive failed", { connection with receptions := later })
    | some given :: later =>
      let received := min chunk (max 1 given)
      (.ok (connection.pending.take received),
        { connection with pending := connection.pending.drop received, receptions := later })
    | [] =>
      (.ok (connection.pending.take chunk),
        { connection with pending := connection.pending.drop chunk })

/-- A connection none of whose receptions fails. -/
def delivering (connection : Connection) : Prop :=
  connection.valid = true ∧ none ∉ connection.receptions

end Connection

structure FramedChannel where
  connection : Connection := {}
  framesReceived : UInt64 := 0
  protocolErrors : UInt64 := 0

namespace FramedChannel

def protocolError (channel : FramedChannel) (connection : Connection) : FramedChannel :=
  { channel with connection, protocolErrors := channel.protocolErrors + 1 }

def receive (channel : FramedChannel) : Outcome Frame × FramedChannel :=
  match fill Connection.recvSome channel.connection kFrameHeaderBytes with
  | (.failed error, connection) => (.error error, channel.protocolError connection)
  | (.ended, connection) =>
    (fail .closed "peer closed the connection", { channel with connection })
  | (.full header, connection) =>
    match decodeFrameHeader header with
    | .error error => (.error error, channel.protocolError connection)
    | .ok (frame, payloadLength) =>
      match fill Connection.recvSome connection payloadLength with
      | (.failed error, connection) => (.error error, channel.protocolError connection)
      | (.ended, connection) =>
        (fail .truncatedInput "peer closed mid-frame", channel.protocolError connection)
      | (.full payload, connection) =>
        if crc32c payload ≠ loadU32 header 16 then
          (fail .checksumMismatch "frame payload failed its integrity check",
            channel.protocolError connection)
        else
          (.ok { frame with payload },
            { channel with connection, framesReceived := channel.framesReceived + 1 })

/-- Receptions one after the other, with their results. -/
def receiveMany : ℕ → FramedChannel → List (Outcome Frame) × FramedChannel
  | 0, channel => ([], channel)
  | count + 1, channel =>
    let first := channel.receive
    let later := receiveMany count first.2
    (first.1 :: later.1, later.2)

end FramedChannel

/-! ### Receptions -/

namespace Connection

/-- Whatever comes of a reception, it takes off the front of what is pending. -/
theorem takes : TakesChunks recvSome pending where
  chunk := by
    intro connection next size chunk h
    unfold recvSome at h
    split_ifs at h with hvalid hsize
    · cases h
      exact ⟨Nat.zero_le _, rfl⟩
    · simp only at h
      split at h
      · cases h
      · cases h
        refine ⟨(List.length_take_le _ _).trans ?_, (List.take_append_drop _ _).symm⟩
        exact (Nat.min_le_left _ _).trans (Nat.min_le_left _ _)
      · cases h
        exact ⟨(List.length_take_le _ _).trans (Nat.min_le_left _ _),
          (List.take_append_drop _ _).symm⟩
    · cases h
  error := by
    intro connection next size error h
    unfold recvSome at h
    split_ifs at h with hvalid hsize
    · cases h
    · simp only at h
      split at h
      · cases h
        rfl
      · cases h
      · cases h
    · cases h
      rfl

/-- A delivering connection gives a part of what is pending. -/
theorem delivers : Delivers recvSome pending delivering where
  gives := by
    rintro connection size ⟨hvalid, hgood⟩ hsize
    have hempty : ∀ count, 0 < count → connection.pending.take count = [] →
        connection.pending = [] := by
      intro count hcount htake
      rcases List.take_eq_nil_iff.mp htake with hzero | hnil
      · omega
      · exact hnil
    have hchunk : 0 < min size kMaxReception := Nat.lt_min.mpr ⟨hsize, by decide⟩
    unfold recvSome
    rw [if_neg (not_not.mpr hvalid), if_neg (Nat.ne_of_gt hsize)]
    cases hr : connection.receptions with
    | nil =>
      exact ⟨_, _, rfl, (List.length_take_le _ _).trans (Nat.min_le_left _ _),
        (List.take_append_drop _ _).symm, hempty _ hchunk, hvalid, List.not_mem_nil⟩
    | cons first later =>
      rw [hr] at hgood
      cases first with
      | none => exact absurd List.mem_cons_self hgood
      | some given =>
        have hreceived : 0 < min (min size kMaxReception) (max 1 given) :=
          Nat.lt_min.mpr ⟨hchunk, Nat.lt_of_lt_of_le Nat.one_pos (Nat.le_max_left _ _)⟩
        exact ⟨_, _, rfl, (List.length_take_le _ _).trans
            ((Nat.min_le_left _ _).trans (Nat.min_le_left _ _)),
          (List.take_append_drop _ _).symm, hempty _ hreceived, hvalid,
          fun hm => hgood (List.mem_cons_of_mem _ hm)⟩

end Connection

/-! ### Frames off a connection -/

namespace FramedChannel

variable {channel : FramedChannel}

/-- A reception takes off the front of what is pending, and the frame it gives is the one that
is decoded from what it took. -/
theorem receive_takes (channel : FramedChannel) : ∃ taken,
    channel.connection.pending = taken ++ channel.receive.2.connection.pending ∧
      ∀ frame, channel.receive.1 = .ok frame → decodeFrame taken = .ok frame := by
  obtain ⟨front, hfront, hheader⟩ := Connection.takes.fill kFrameHeaderBytes channel.connection
  unfold receive
  cases hf : fill Connection.recvSome channel.connection kFrameHeaderBytes with
  | mk filled connection =>
    rw [hf] at hfront hheader
    cases filled with
    | failed error => exact ⟨front, hfront, nofun⟩
    | ended => exact ⟨front, hfront, nofun⟩
    | full header =>
      obtain ⟨rfl, hlen⟩ := hheader header rfl
      simp only
      cases hd : decodeFrameHeader front with
      | error error => exact ⟨front, hfront, nofun⟩
      | ok decoded =>
        obtain ⟨blank, count⟩ := decoded
        obtain ⟨back, hback, hpayload⟩ := Connection.takes.fill count connection
        have hall : channel.connection.pending =
            front ++ back ++ (fill Connection.recvSome connection count).2.pending := by
          rw [hfront, hback, List.append_assoc]
        simp only
        cases hg : fill Connection.recvSome connection count with
        | mk filled last =>
          rw [hg] at hall hpayload
          cases filled with
          | failed error => exact ⟨front ++ back, hall, nofun⟩
          | ended => exact ⟨front ++ back, hall, nofun⟩
          | full payload =>
            obtain ⟨rfl, hcount⟩ := hpayload payload rfl
            simp only
            by_cases hsum : crc32c back = loadU32 front 16
            · rw [if_neg (not_not.mpr hsum)]
              refine ⟨front ++ back, hall, fun frame hframe => ?_⟩
              obtain rfl := Except.ok.inj hframe
              rw [← hcount] at hd
              exact decodeFrame_append hlen hd hsum
            · rw [if_pos hsum]
              exact ⟨front ++ back, hall, nofun⟩

/-- A frame that is decoded off the front of what is pending is received, however it is cut. -/
theorem receive_frame (h : channel.connection.delivering) {frame : Frame}
    (hd : decodeFrame channel.connection.pending = .ok frame) :
    channel.receive.1 = .ok frame ∧
      channel.receive.2.connection.pending =
        channel.connection.pending.drop (kFrameHeaderBytes + frame.payload.length) ∧
      channel.receive.2.connection.delivering := by
  obtain ⟨blank, count, hheader, hlen, hsum, rfl⟩ := decodeFrame_eq_ok.mp hd
  have hwhole : kFrameHeaderBytes ≤ channel.connection.pending.length := by omega
  obtain ⟨connection, hfill, hpending, hready⟩ := Connection.delivers.fill_full h hwhole
  have hcount : count ≤ connection.pending.length := by
    rw [hpending, List.length_drop]
    omega
  obtain ⟨last, hfill', hpending', hready'⟩ := Connection.delivers.fill_full hready hcount
  have hload : loadU32 (channel.connection.pending.take kFrameHeaderBytes) 16 =
      loadU32 channel.connection.pending 16 := loadU32_take (Nat.le_refl 20) hwhole
  have hreceive : channel.receive =
      (.ok { blank with payload := (channel.connection.pending.drop kFrameHeaderBytes).take count },
        { channel with connection := last, framesReceived := channel.framesReceived + 1 }) := by
    unfold receive
    rw [hfill]
    simp only
    rw [decodeFrameHeader_take (Nat.le_refl _) hwhole, hheader]
    simp only
    rw [hfill', hpending]
    simp only
    rw [hload, if_neg (not_not.mpr hsum)]
  rw [hreceive]
  refine ⟨rfl, ?_, hready'⟩
  have hpayload : ((channel.connection.pending.drop kFrameHeaderBytes).take count).length = count :=
    List.length_take_of_le (hpending ▸ hcount)
  rw [hpayload, hpending', hpending, List.drop_drop]

/-- Where the stream ends within a header, the connection is reported closed. -/
theorem receive_closed (h : channel.connection.delivering)
    (hlen : channel.connection.pending.length < kFrameHeaderBytes) :
    channel.receive.1 = fail .closed "peer closed the connection" ∧
      channel.receive.2.connection.pending = [] ∧ channel.receive.2.connection.delivering := by
  obtain ⟨connection, hfill, hpending, hready⟩ := Connection.delivers.fill_ended h hlen
  unfold receive
  rw [hfill]
  exact ⟨rfl, hpending, hready⟩

/-- Where it ends within a payload, the input is reported truncated. -/
theorem receive_truncated (h : channel.connection.delivering) {blank : Frame} {count : ℕ}
    (hheader : decodeFrameHeader channel.connection.pending = .ok (blank, count))
    (hlen : channel.connection.pending.length < kFrameHeaderBytes + count) :
    channel.receive.1 = fail .truncatedInput "peer closed mid-frame" ∧
      channel.receive.2.connection.pending = [] ∧ channel.receive.2.connection.delivering := by
  have hwhole := decodeFrameHeader_length hheader
  obtain ⟨connection, hfill, hpending, hready⟩ := Connection.delivers.fill_full h hwhole
  have hcount : connection.pending.length < count := by
    rw [hpending, List.length_drop]
    omega
  obtain ⟨last, hfill', hpending', hready'⟩ := Connection.delivers.fill_ended hready hcount
  unfold receive
  rw [hfill]
  simp only
  rw [decodeFrameHeader_take (Nat.le_refl _) hwhole, hheader]
  simp only
  rw [hfill']
  exact ⟨rfl, hpending', hready'⟩

/-! ### Streams of frames -/

/-- A channel over a stream, whose receptions are given. -/
def ofStream (bytes : Text) (receptions : List (Option ℕ)) : FramedChannel :=
  { connection := { pending := bytes, receptions } }

theorem ofStream_delivering (bytes : Text) (sizes : List ℕ) :
    (ofStream bytes (sizes.map some)).connection.delivering := by
  refine ⟨rfl, fun hm => ?_⟩
  obtain ⟨size, -, hsome⟩ := List.mem_map.mp hm
  cases hsome

/-- The stream ends within the payload that its header announces. -/
def endsWithinPayload (bytes : Text) : Prop :=
  ∃ blank count, decodeFrameHeader bytes = .ok (blank, count) ∧
    bytes.length < kFrameHeaderBytes + count

/-- The frames at the front of a stream are received in order, and leave the rest of it. -/
theorem receiveMany_frames {frames : List Frame} {encoded : List Text} {rest : Text}
    (h : channel.connection.delivering) (he : frames.mapM encodeFrame = .ok encoded)
    (hp : channel.connection.pending = encoded.flatten ++ rest) :
    ∃ last : FramedChannel, last.connection.delivering ∧ last.connection.pending = rest ∧
      ∀ k, (receiveMany (frames.length + k) channel).1 =
        frames.map Except.ok ++ (receiveMany k last).1 := by
  induction frames generalizing channel encoded with
  | nil =>
    cases he
    refine ⟨channel, h, hp, fun k => ?_⟩
    rw [List.length_nil, Nat.zero_add]
    rfl
  | cons frame frames ih =>
    rw [List.mapM_cons] at he
    obtain ⟨bytes, hbytes, he⟩ := outcome_bind_eq_ok.mp he
    obtain ⟨later, hlater, he⟩ := outcome_bind_eq_ok.mp he
    obtain rfl := Except.ok.inj he
    have hfront : channel.connection.pending = bytes ++ (later.flatten ++ rest) := by
      rw [hp, List.flatten_cons, List.append_assoc]
    have hdecoded : decodeFrame channel.connection.pending = .ok frame := by
      rw [hfront]
      exact decodeFrame_encodeFrame hbytes _
    obtain ⟨hframe, hpending, hready⟩ := receive_frame h hdecoded
    rw [hfront, ← encodeFrame_length hbytes, List.drop_left] at hpending
    obtain ⟨last, hlast, hrest, hmany⟩ := ih hready hlater hpending
    refine ⟨last, hlast, hrest, fun k => ?_⟩
    rw [List.length_cons, Nat.add_right_comm, receiveMany]
    simp only [hframe, hmany, List.map_cons, List.cons_append]

/-- At the end of the stream every reception reports the connection closed. -/
theorem receiveMany_closed (h : channel.connection.delivering)
    (hp : channel.connection.pending = []) (k : ℕ) :
    (receiveMany k channel).1 = List.replicate k (fail .closed "peer closed the connection") := by
  induction k generalizing channel with
  | zero => rfl
  | succ k ih =>
    obtain ⟨hclosed, hpending, hready⟩ := receive_closed h (by rw [hp]; decide)
    rw [receiveMany, List.replicate_succ]
    simp only [hclosed, ih hready hpending]

/-- Receptions take segments off the front of the stream, and every frame they give is decoded
from its own segment. -/
theorem receiveMany_segments (channel : FramedChannel) (count : ℕ) : ∃ segments : List Text,
    channel.connection.pending =
        segments.flatten ++ (receiveMany count channel).2.connection.pending ∧
      List.Forall₂ (fun result segment => ∀ frame, result = .ok frame →
        decodeFrame segment = .ok frame) (receiveMany count channel).1 segments := by
  induction count generalizing channel with
  | zero => exact ⟨[], rfl, List.Forall₂.nil⟩
  | succ count ih =>
    obtain ⟨taken, hpending, hframe⟩ := receive_takes channel
    obtain ⟨segments, hlater, hall⟩ := ih channel.receive.2
    refine ⟨taken :: segments, ?_, List.Forall₂.cons hframe hall⟩
    rw [List.flatten_cons, List.append_assoc]
    exact hpending.trans (congrArg (taken ++ ·) hlater)

/-- Over a stream that is delivered in chunks of any sizes: the frames are received in order,
and after them the end of the stream; a stream that ends within a payload is reported truncated
where it ends; and every frame that is received of any bytes, however they come, is the one
that is decoded from them. -/
theorem receive_refines_decode {frames : List Frame} {encoded : List Text}
    (he : frames.mapM encodeFrame = .ok encoded) (sizes : List ℕ) :
    (∀ k, (receiveMany (frames.length + k) (ofStream encoded.flatten (sizes.map some))).1 =
        frames.map Except.ok ++
          List.replicate k (fail .closed "peer closed the connection")) ∧
      (∀ cut, endsWithinPayload cut → ∀ k,
        (receiveMany (frames.length + (k + 1))
            (ofStream (encoded.flatten ++ cut) (sizes.map some))).1 =
          frames.map Except.ok ++ fail .truncatedInput "peer closed mid-frame" ::
            List.replicate k (fail .closed "peer closed the connection")) ∧
      ∀ bytes receptions count, ∃ segments rest, bytes = segments.flatten ++ rest ∧
        List.Forall₂ (fun result segment => ∀ frame, result = .ok frame →
          decodeFrame segment = .ok frame)
          (receiveMany count (ofStream bytes receptions)).1 segments := by
  refine ⟨fun k => ?_, ?_, fun bytes receptions count => ?_⟩
  · obtain ⟨last, hready, hpending, hmany⟩ := @receiveMany_frames _ _ _ []
      (ofStream_delivering encoded.flatten sizes) he (List.append_nil _).symm
    rw [hmany, receiveMany_closed hready hpending]
  · rintro cut ⟨blank, count, hheader, hlen⟩ k
    obtain ⟨last, hready, hpending, hmany⟩ := receiveMany_frames
      (ofStream_delivering (encoded.flatten ++ cut) sizes) he rfl
    rw [← hpending] at hheader hlen
    obtain ⟨htruncated, hempty, hdone⟩ := receive_truncated hready hheader hlen
    rw [hmany, receiveMany]
    simp only [htruncated, receiveMany_closed hdone hempty]
  · obtain ⟨segments, hpending, hall⟩ := receiveMany_segments (ofStream bytes receptions) count
    exact ⟨segments, _, hpending, hall⟩

/-- Two frames, the second without a payload. -/
def sampleFrames : List Frame := [{ type := .hello, payload := [1, 2, 3] }, { type := .heartbeat }]

def sampleStream : List Text := ((sampleFrames.mapM encodeFrame).toOption).getD []

/-- The two frames received one byte, then four, then seven at a time. -/
theorem receive_refines_decode_two :
    (receiveMany 3 (ofStream sampleStream.flatten ([1, 4, 7].map some))).1 =
      sampleFrames.map Except.ok ++ [fail .closed "peer closed the connection"] := by
  have he : sampleFrames.mapM encodeFrame = .ok sampleStream := by decide +kernel
  exact (receive_refines_decode he [1, 4, 7]).1 1

end FramedChannel

end IncastGovernor
