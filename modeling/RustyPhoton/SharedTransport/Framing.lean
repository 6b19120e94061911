import RustyPhoton.Lib.PrefixCode
import RustyPhoton.SharedTransport.Exchange

/-!
# Frames out of a byte stream

A serial port delivers its bytes in chunks that say nothing about frames. `recvFrame` gathers one
frame from as many chunks as it takes, never holding more than the largest frame, and leaves what
follows the terminator for the next call. Read call by call to the first error, the frames, the
error and the bound on the buffer come from the bytes alone.
-/

namespace RustyPhoton.SharedTransport

open Lib

/-- What one read of the port brings; a read that brings nothing is the end of the stream. -/
abbrev Chunk : Type := {bytes : List UInt8 // bytes ≠ []}

/-- What the port does after its last byte. -/
inductive Ending where
  | closed
  | failed (timedOut : Bool) (text : String)
  /-- Nothing more comes and the port stays open: the caller's timeout ends the wait. -/
  | silent

structure SerialFrameTransport where
  terminator : UInt8
  maxFrameSize : Nat

def classifyIoError (timedOut : Bool) (text : String) : TransportError :=
  if timedOut then .timeout else .io text

/-- `BufReader::consume`: what is left of a chunk is the next one. -/
def consume (taken : Nat) (chunk : Chunk) (later : List Chunk) : List Chunk :=
  if h : chunk.1.drop taken = [] then later else ⟨chunk.1.drop taken, h⟩ :: later

/-- What a turn of the loop makes of a chunk. -/
inductive Scanned where
  | terminated (frame : List UInt8)
  | exceeded
  | whole

/-- What a call did: its result, every content its buffer had, the last of them and the chunks it
left to the next call. -/
structure Received where
  result : Except TransportError Unit
  held : List (List UInt8)
  buf : List UInt8
  unread : List Chunk

/-- The frames of the calls up to the first error, that error, and every content of the buffer. -/
structure Drained where
  frames : List (List UInt8)
  error : TransportError
  held : List (List UInt8)

/-- The bytes of a list of chunks. -/
def bytesOf (chunks : List Chunk) : List UInt8 :=
  (chunks.map Subtype.val).flatten

namespace SerialFrameTransport

variable (port : SerialFrameTransport) (ending : Ending)

/-- The error of a call that runs out of chunks with this in its buffer. -/
def endOfStream (buf : List UInt8) : TransportError :=
  match ending with
  | .closed =>
      if buf.isEmpty then .eof
      else .framing s!"stream ended without terminator after {buf.length} bytes"
  | .failed timedOut text => classifyIoError timedOut text
  | .silent => .timeout

def oversized : TransportError :=
  .framing s!"frame exceeded max size {port.maxFrameSize} bytes without terminator"

def scan (buf chunk : List UInt8) : Scanned :=
  let budget := port.maxFrameSize - buf.length
  let scanEnd := min chunk.length budget
  match (chunk.take scanEnd).findIdx? (· == port.terminator) with
  | some pos => .terminated (chunk.take (pos + 1))
  | none =>
      -- the budget ends inside the chunk, and the frame does not
      if scanEnd < chunk.length then .exceeded else .whole

def readFrameBounded (buf : List UInt8) : List Chunk → Received
  | [] => ⟨.error (endOfStream ending buf), [buf], buf, []⟩
  | chunk :: later =>
      match port.scan buf chunk.1 with
      | .terminated frame =>
          ⟨.ok (), [buf, buf ++ frame], buf ++ frame, consume frame.length chunk later⟩
      | .exceeded => ⟨.error port.oversized, [buf], buf, chunk :: later⟩
      | .whole =>
          let rest := readFrameBounded (buf ++ chunk.1) later
          { rest with held := buf :: rest.held }

def recvFrame (chunks : List Chunk) : Received :=
  port.readFrameBounded ending [] chunks

/-! ## One call -/

/-- A terminator at the end, none before it, and no more bytes than a frame may have. -/
def IsFrame (frame : List UInt8) : Prop :=
  ∃ body, frame = body ++ [port.terminator] ∧ port.terminator ∉ body ∧
    frame.length ≤ port.maxFrameSize

theorem isFrame_prefixFree : PrefixCode.PrefixFree port.IsFrame := by
  rintro frame other ⟨body, rfl, hbody, -⟩ ⟨body', rfl, hbody', -⟩ hle
  obtain ⟨more, hmore⟩ := hle
  rcases List.eq_nil_or_concat more with rfl | ⟨front, last, rfl⟩
  · simpa using hmore
  · -- a longer frame would have this one's terminator inside its body
    have hsplit : body ++ [port.terminator] ++ front = body' := by
      have := congrArg List.dropLast hmore
      simpa [← List.append_assoc] using this
    exact absurd (by rw [← hsplit]; simp) hbody'

/-- The error of a stream that begins with no frame. -/
def errorOf (stream : List UInt8) : TransportError :=
  if port.maxFrameSize < stream.length then port.oversized else endOfStream ending stream

@[simp] theorem bytesOf_nil : bytesOf [] = [] := rfl

@[simp] theorem bytesOf_cons (chunk : Chunk) (later : List Chunk) :
    bytesOf (chunk :: later) = chunk.1 ++ bytesOf later := rfl

theorem bytesOf_consume (taken : Nat) (chunk : Chunk) (later : List Chunk) :
    bytesOf (consume taken chunk later) = chunk.1.drop taken ++ bytesOf later := by
  unfold consume
  split
  · next h => rw [h, List.nil_append]
  · rfl

/-- A frame that begins the stream has its terminator among the first bytes of the bound. -/
theorem mem_take_of_frame {frame stream : List UInt8} (hframe : port.IsFrame frame)
    (h : frame <+: stream) : port.terminator ∈ stream.take port.maxFrameSize := by
  obtain ⟨body, rfl, -, hlen⟩ := hframe
  have hle : body ++ [port.terminator] <+: stream.take port.maxFrameSize :=
    List.prefix_take_iff.mpr ⟨h, hlen⟩
  exact hle.subset (by simp)

/-! ### A turn of the loop -/

theorem scan_terminated {buf chunk frame : List UInt8}
    (h : port.scan buf chunk = .terminated frame) :
    ∃ body, frame = body ++ [port.terminator] ∧ port.terminator ∉ body ∧ frame <+: chunk ∧
      buf.length + frame.length ≤ port.maxFrameSize := by
  simp only [scan] at h
  split at h
  · next pos hpos =>
    rw [List.findIdx?_eq_some_iff_getElem] at hpos
    obtain ⟨hlt, hat, hbefore⟩ := hpos
    have hpos : pos < chunk.length ∧ pos < port.maxFrameSize - buf.length := by
      simp only [List.length_take] at hlt
      omega
    cases h
    refine ⟨chunk.take pos, ?_, ?_, List.take_prefix _ _, ?_⟩
    · rw [List.take_succ_eq_append_getElem hpos.1]
      have heq : chunk[pos] = port.terminator := by simpa using hat
      rw [heq]
    · intro hmem
      obtain ⟨i, hi, hget⟩ := List.mem_iff_getElem.mp hmem
      have hi' : i < pos := by simp only [List.length_take] at hi; omega
      have := hbefore i hi'
      simp only [List.getElem_take] at hget this
      simp [hget] at this
    · rw [List.length_take]
      omega
  · split at h <;> cases h

theorem not_mem_of_findIdx? {bytes : List UInt8}
    (h : bytes.findIdx? (· == port.terminator) = none) : port.terminator ∉ bytes := by
  intro hmem
  simpa using List.findIdx?_eq_none_iff.mp h _ hmem

theorem scan_exceeded {buf chunk : List UInt8} (h : port.scan buf chunk = .exceeded) :
    port.terminator ∉ chunk.take (port.maxFrameSize - buf.length) ∧
      port.maxFrameSize - buf.length < chunk.length := by
  simp only [scan] at h
  split at h
  · cases h
  · next hnone =>
    split at h
    · next hlt =>
      have hend : min chunk.length (port.maxFrameSize - buf.length)
          = port.maxFrameSize - buf.length := by omega
      rw [hend] at hnone hlt
      exact ⟨port.not_mem_of_findIdx? hnone, hlt⟩
    · cases h

theorem scan_whole {buf chunk : List UInt8} (h : port.scan buf chunk = .whole) :
    port.terminator ∉ chunk ∧ chunk.length ≤ port.maxFrameSize - buf.length := by
  simp only [scan] at h
  split at h
  · cases h
  · next hnone =>
    split at h
    · cases h
    · next hlt =>
      have hend : min chunk.length (port.maxFrameSize - buf.length) = chunk.length := by omega
      rw [hend, List.take_length] at hnone
      exact ⟨port.not_mem_of_findIdx? hnone, by omega⟩

/-! ### The loop -/

/-- What a call owes to the bytes in front of it, its buffer's first. -/
structure Meets (stream : List UInt8) (got : Received) : Prop where
  /-- A frame is the stream's beginning, and the chunks left hold what follows it. -/
  frame : got.result = .ok () → port.IsFrame got.buf ∧ got.buf ++ bytesOf got.unread = stream
  error : ∀ e, got.result = .error e →
    e = port.errorOf ending stream ∧ ∀ frame, port.IsFrame frame → ¬ frame <+: stream
  bounded : ∀ buf ∈ got.held, buf.length ≤ port.maxFrameSize

theorem readFrameBounded_meets {buf : List UInt8} (chunks : List Chunk)
    (hbuf : port.terminator ∉ buf) (hlen : buf.length ≤ port.maxFrameSize) :
    port.Meets ending (buf ++ bytesOf chunks) (port.readFrameBounded ending buf chunks) := by
  induction chunks generalizing buf with
  | nil =>
    refine ⟨nofun, ?_, by simpa [readFrameBounded] using hlen⟩
    intro e he
    cases he
    rw [bytesOf_nil, List.append_nil]
    refine ⟨by rw [errorOf, if_neg (by omega)], ?_⟩
    intro frame hframe hle
    exact hbuf (List.mem_of_mem_take (port.mem_take_of_frame hframe hle))
  | cons chunk later ih =>
    rw [bytesOf_cons]
    unfold readFrameBounded
    split
    · next frame hscan =>
      obtain ⟨body, hframe, hbody, ⟨more, hmore⟩, hsize⟩ := port.scan_terminated hscan
      refine ⟨?_, nofun, ?_⟩
      · intro _
        refine ⟨⟨buf ++ body, by rw [hframe, List.append_assoc], by simp [hbuf, hbody],
          by rw [List.length_append]; omega⟩, ?_⟩
        show buf ++ frame ++ bytesOf (consume frame.length chunk later) = _
        rw [bytesOf_consume, ← hmore, List.drop_left]
        simp only [List.append_assoc]
      · intro held hmem
        rcases List.mem_pair.mp hmem with rfl | rfl
        · exact hlen
        · rw [List.length_append]
          omega
    · next hscan =>
      obtain ⟨hnone, hlt⟩ := port.scan_exceeded hscan
      refine ⟨nofun, ?_, by simpa using hlen⟩
      intro e he
      cases he
      constructor
      · rw [errorOf, if_pos (by simp only [List.length_append]; omega)]
      · intro frame hframe hle
        -- the frame's terminator is neither in the buffer nor among the scanned bytes
        have hmem := port.mem_take_of_frame hframe hle
        rw [List.take_append, List.mem_append] at hmem
        rcases hmem with hmem | hmem
        · exact hbuf (List.mem_of_mem_take hmem)
        · rw [List.take_append_of_le_length (by omega)] at hmem
          exact hnone hmem
    · next hscan =>
      obtain ⟨hnone, hsize⟩ := port.scan_whole hscan
      have hrest := @ih (buf ++ chunk.1) (by simp [hbuf, hnone])
        (by rw [List.length_append]; omega)
      rw [List.append_assoc] at hrest
      refine ⟨hrest.frame, hrest.error, ?_⟩
      intro held hmem
      rcases List.mem_cons.mp hmem with rfl | hmem
      · exact hlen
      · exact hrest.bounded held hmem

theorem recvFrame_meets (chunks : List Chunk) :
    port.Meets ending (bytesOf chunks) (port.recvFrame ending chunks) :=
  port.readFrameBounded_meets ending chunks List.not_mem_nil (Nat.zero_le _)

/-- A frame of the largest size whose terminator comes in a chunk of its own. -/
example : ((recvFrame ⟨10, 3⟩ .closed [⟨[1, 2], nofun⟩, ⟨[10, 4], nofun⟩]).buf,
    bytesOf (recvFrame ⟨10, 3⟩ .closed [⟨[1, 2], nofun⟩, ⟨[10, 4], nofun⟩]).unread)
      = ([1, 2, 10], [4]) := by decide

/-! ## Call after call -/

/-- What a call that returned a frame left unread is less than it was given. -/
theorem recvFrame_unread_lt {chunks : List Chunk}
    (h : (port.recvFrame ending chunks).result = .ok ()) :
    (bytesOf (port.recvFrame ending chunks).unread).length < (bytesOf chunks).length := by
  obtain ⟨⟨body, hbody, -⟩, hwhole⟩ := (port.recvFrame_meets ending chunks).frame h
  rw [← hwhole, hbody]
  simp only [List.length_append, List.length_singleton]
  omega

/-- `recv_frame` until it fails. -/
def recvFrames (chunks : List Chunk) : Drained :=
  match _h : (port.recvFrame ending chunks).result with
  | .ok () =>
      let rest := recvFrames (port.recvFrame ending chunks).unread
      { rest with
        frames := (port.recvFrame ending chunks).buf :: rest.frames
        held := (port.recvFrame ending chunks).held ++ rest.held }
  | .error e => ⟨[], e, (port.recvFrame ending chunks).held⟩
termination_by (bytesOf chunks).length
decreasing_by exact port.recvFrame_unread_lt ending _h

/-- The calls read the stream frame by frame to a rest that begins with none. -/
theorem recvFrames_parsed (chunks : List Chunk) :
    ∃ rest, PrefixCode.Parsed port.IsFrame (bytesOf chunks)
        (port.recvFrames ending chunks).frames rest ∧
      (port.recvFrames ending chunks).error = port.errorOf ending rest ∧
      ∀ buf ∈ (port.recvFrames ending chunks).held, buf.length ≤ port.maxFrameSize := by
  fun_induction recvFrames port ending chunks with
  | case1 chunks hok rest ih =>
    obtain ⟨left, hparsed, herror, hheld⟩ := ih
    have hcall := port.recvFrame_meets ending chunks
    obtain ⟨hframe, hwhole⟩ := hcall.frame hok
    refine ⟨left, ?_, herror, ?_⟩
    · have := hparsed.cons hframe
      rwa [hwhole] at this
    · intro buf hmem
      rcases List.mem_append.mp hmem with hmem | hmem
      · exact hcall.bounded buf hmem
      · exact hheld buf hmem
  | case2 chunks e herr =>
    have hcall := port.recvFrame_meets ending chunks
    obtain ⟨heq, hstops⟩ := hcall.error e herr
    exact ⟨bytesOf chunks, PrefixCode.Parsed.nil hstops, heq, hcall.bounded⟩

/-- A way of cutting a stream into chunks. -/
abbrev Splitting (stream : List UInt8) : Type := {chunks : List Chunk // bytesOf chunks = stream}

/-- However the port delivers a stream, the calls return the same frames and fail alike. -/
theorem recvFrames_splitting {stream : List UInt8} (first second : Splitting stream) :
    (port.recvFrames ending first.1).frames = (port.recvFrames ending second.1).frames ∧
      (port.recvFrames ending first.1).error = (port.recvFrames ending second.1).error ∧
      (∀ frame ∈ (port.recvFrames ending first.1).frames,
        ∃ body, frame = body ++ [port.terminator] ∧ port.terminator ∉ body ∧
          frame.length ≤ port.maxFrameSize) ∧
      (port.recvFrames ending first.1).frames.flatten <+: stream ∧
      ∀ buf ∈ (port.recvFrames ending first.1).held, buf.length ≤ port.maxFrameSize := by
  obtain ⟨rest, hfirst, herror, hheld⟩ := port.recvFrames_parsed ending first.1
  obtain ⟨rest', hsecond, herror', -⟩ := port.recvFrames_parsed ending second.1
  rw [first.2] at hfirst
  rw [second.2] at hsecond
  obtain ⟨hframes, rfl⟩ := hfirst.unique port.isFrame_prefixFree hsecond
  exact ⟨hframes, herror.trans herror'.symm, hfirst.codes, ⟨rest, hfirst.whole⟩, hheld⟩

end SerialFrameTransport

end RustyPhoton.SharedTransport
