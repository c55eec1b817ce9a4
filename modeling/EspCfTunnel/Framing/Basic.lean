import EspCfTunnel.Core

/-!
# The stream framer

`cf_capnp_framing.c`. A framer collects a byte stream in a caller-owned buffer and hands each
complete Cap'n Proto frame to a callback. A frame arrives in three phases: the segment count, the
rest of the segment table, the segments; each phase ends when `used` reaches `target`, and sets the
`target` of the next. `capnpSegment` is the independent validator the reader uses on a whole frame.

The buffer is a memory, so bytes of an earlier frame stay behind in it after a reset. The callback
is any function from its own state and a frame to a new state and a result.
-/

namespace EspCfTunnel.Framing

open EspCfTunnel

/-- `CF_CAPNP_MAX_SEGMENTS`. -/
abbrev maxSegments : Nat := 8

/-- `CF_CAPNP_MESSAGE_MAX`. -/
abbrev messageMax : Nat := 16384

/-- `u32`: the little-endian number in the four bytes at `off`. -/
def u32 (p : Mem) (off : Nat) : Nat := Bytes.le (p.read off 4)

/-- `table_size`: the bytes of the segment table of `n` segments, padded to a word. -/
def tableSize (n : Nat) : Nat := (n + 2) / 2 * 8

/-- The size in words that the table at `p` gives segment `i`. -/
def segmentWords (p : Mem) (i : Nat) : Nat := u32 p (4 + i * 4)

/-- The loop of `total_size`: `k` segments from number `i` on are left to add to `total`. -/
def totalSizeFrom (p : Mem) (cap : Nat) : Nat → Nat → Nat → Except Result Nat
  | 0, _, total => .ok total
  | k + 1, i, total =>
    if segmentWords p i > (cap - total) / 8 then .error .limit
    else totalSizeFrom p cap k (i + 1) (total + segmentWords p i * 8)

/-- `total_size`: the bytes of the frame whose table is at `p`, if they fit in `cap`. -/
def totalSize (p : Mem) (n cap : Nat) : Except Result Nat :=
  if tableSize n > cap then .error .limit
  -- Segment zero must contain the root pointer. Empty later segments are legal.
  else if segmentWords p 0 = 0 then .error .format
  else totalSizeFrom p cap n 0 (tableSize n)

/-- `cf_capnp_framer`. -/
structure Framer where
  buffer : Mem
  capacity : Nat
  used : Nat
  target : Nat
  segments : Nat
  phase : Nat
  error : Result

/-- `cf_capnp_framer_reset`. -/
def framerReset (f : Framer) : Framer :=
  { f with used := 0, target := 4, segments := 0, phase := 0, error := .ok }

/-- `cf_capnp_framer_init`. -/
def framerInit (buffer : Mem) (cap : Nat) : Except Result Framer :=
  if cap < 16 ∨ cap > messageMax then .error .argument
  else .ok (framerReset ⟨buffer, cap, 0, 0, 0, 0, .ok⟩)

section
variable {σ : Type}

/-- The part of `cf_capnp_feed`'s loop body that runs when `used` has reached `target`. -/
def complete (callback : σ → Bytes → σ × Result) (f : Framer) (s : σ) : Framer × σ :=
  if f.phase = 0 then
    let minusOne := u32 f.buffer 0
    if minusOne ≥ maxSegments then ({ f with error := .limit }, s)
    else
      let f := { f with segments := minusOne + 1, target := tableSize (minusOne + 1) }
      if f.target > f.capacity then ({ f with error := .limit }, s)
      else ({ f with phase := 1 }, s)
  else if f.phase = 1 then
    match totalSize f.buffer f.segments f.capacity with
    | .error rc => ({ f with error := rc }, s)
    | .ok total => ({ f with target := total, phase := 2 }, s)
  else
    let (s, rc) := callback s (f.buffer.read 0 f.used)
    if rc ≠ .ok then ({ f with error := rc }, s) else (framerReset f, s)

/-- What a call of `cf_capnp_feed` leaves: the framer, the callback's state, `*consumed` and the
returned result. -/
structure FeedResult (σ : Type) where
  framer : Framer
  state : σ
  consumed : Nat
  result : Result

/-- The loop of `cf_capnp_feed` on the bytes `rest` after the first `consumed`. Every round takes at
least one byte (`feedLoop_eq_pushAll`), so the number of bytes is fuel enough. -/
def feedLoop (callback : σ → Bytes → σ × Result) :
    Nat → Framer → σ → Bytes → Nat → FeedResult σ
  | 0, f, s, _, consumed => ⟨f, s, consumed, .ok⟩
  | fuel + 1, f, s, rest, consumed =>
    if rest = [] then ⟨f, s, consumed, .ok⟩
    else
      let n := min (f.target - f.used) rest.length
      let f := { f with buffer := f.buffer.write f.used (rest.take n), used := f.used + n }
      if f.used ≠ f.target then feedLoop callback fuel f s (rest.drop n) (consumed + n)
      else
        let (f, s) := complete callback f s
        if f.error ≠ .ok then ⟨f, s, consumed + n, f.error⟩
        else feedLoop callback fuel f s (rest.drop n) (consumed + n)

/-- `cf_capnp_feed`. -/
def capnpFeed (callback : σ → Bytes → σ × Result) (f : Framer) (s : σ) (input : Bytes) :
    FeedResult σ :=
  if f.error ≠ .ok then ⟨f, s, 0, f.error⟩
  else feedLoop callback input.length f s input 0

/-- What the callback keeps of its own state, `cf_capnp_feed` keeps. -/
theorem capnpFeed_state {P : σ → Prop} {callback : σ → Bytes → σ × Result}
    (hcallback : ∀ s frame, P s → P (callback s frame).1) (f : Framer) {s : σ} (hs : P s)
    (input : Bytes) : P (capnpFeed callback f s input).state := by
  have hcomplete : ∀ f s, P s → P (complete callback f s).2 := by
    intro f s hs
    unfold complete
    split
    · dsimp only
      repeat' split
      all_goals exact hs
    · split
      · split <;> exact hs
      · dsimp only
        split <;> exact hcallback _ _ hs
  have hloop : ∀ fuel f s rest consumed, P s → P (feedLoop callback fuel f s rest consumed).state := by
    intro fuel
    induction fuel with
    | zero => exact fun _ _ _ _ hs => hs
    | succ fuel ih =>
      intro f s rest consumed hs
      rw [feedLoop]
      split
      · exact hs
      · dsimp only
        split
        · exact ih _ _ _ _ hs
        · split
          · exact hcomplete _ _ hs
          · exact ih _ _ _ _ (hcomplete _ _ hs)
  unfold capnpFeed
  split
  · exact hs
  · exact hloop _ _ _ _ _ hs

end

/-- `cf_capnp_eof`. -/
def capnpEof (f : Framer) : Result :=
  if f.error ≠ .ok then f.error else if f.used ≠ 0 then .truncated else .ok

/-- The offset of segment `index`: the table and the segments before it. -/
def segmentOffset (p : Mem) (n : Nat) : Nat → Nat
  | 0 => tableSize n
  | i + 1 => segmentOffset p n i + segmentWords p i * 8

/-- `cf_capnp_segment`: validate the exact frame size and give a view of one segment. -/
def capnpSegment (frame : Bytes) (index : Nat) : Except Result View :=
  let p := Mem.ofBytes frame
  if frame.length < 8 then .error .truncated
  else if u32 p 0 ≥ maxSegments then .error .limit
  else
    let n := u32 p 0 + 1
    if index ≥ n then .error .argument
    else if tableSize n > frame.length then .error .truncated
    else
      match totalSize p n messageMax with
      | .error rc => .error rc
      | .ok total =>
        if total ≠ frame.length then .error (if total > frame.length then .truncated else .format)
        else .ok ⟨segmentOffset p n index, segmentWords p index * 8⟩

end EspCfTunnel.Framing
