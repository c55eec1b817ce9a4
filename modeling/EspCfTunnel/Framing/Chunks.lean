import EspCfTunnel.Framing.Basic

/-!
# Framing does not depend on the chunks

`cf_capnp_feed` copies a chunk in pieces that end where a phase ends. Here it is compared with the
framer that takes one byte at a time (`push`): between two bytes a framer keeps `Framer.Inv`, so the
loop makes progress in every round, and a call is the byte framer on the bytes it is given
(`capnpFeed_eq_pushAll`). Taking bytes one at a time clearly does not see chunk borders
(`pushAll_append`), so neither does a sequence of calls (`feedAll_eq_pushAll`).
-/

namespace EspCfTunnel.Framing

open EspCfTunnel

/-! ## The segment table -/

@[simp] theorem segmentOffset_zero (p : Mem) (n : Nat) : segmentOffset p n 0 = tableSize n := rfl

theorem segmentOffset_succ (p : Mem) (n i : Nat) :
    segmentOffset p n (i + 1) = segmentOffset p n i + segmentWords p i * 8 := rfl

/-- Segment offsets grow with the index. -/
theorem segmentOffset_mono (p : Mem) (n i k : Nat) :
    segmentOffset p n i ≤ segmentOffset p n (i + k) := by
  induction k with
  | zero => exact le_rfl
  | succ k ih => rw [← Nat.add_assoc, segmentOffset_succ]; omega

/-- The loop of `total_size` adds up the segments, as long as the sum fits. -/
theorem totalSizeFrom_eq_ok {p : Mem} {cap n t : Nat} (k i : Nat) (hcap : segmentOffset p n i ≤ cap) :
    totalSizeFrom p cap k i (segmentOffset p n i) = .ok t ↔
      t = segmentOffset p n (i + k) ∧ t ≤ cap := by
  induction k generalizing i with
  | zero =>
    simp only [totalSizeFrom, Except.ok.injEq, Nat.add_zero]
    constructor
    · rintro rfl; exact ⟨rfl, hcap⟩
    · exact fun h => h.1.symm
  | succ k ih =>
    rw [totalSizeFrom]
    split
    · next h =>
      simp only [reduceCtorEq, false_iff, not_and]
      rintro rfl
      have h₁ := segmentOffset_mono p n (i + 1) k
      rw [segmentOffset_succ] at h₁
      rw [show i + (k + 1) = i + 1 + k by omega]
      omega
    · next h =>
      rw [← segmentOffset_succ, ih (i + 1) (by rw [segmentOffset_succ]; omega),
        show i + (k + 1) = i + 1 + k by omega]

/-- `total_size` succeeds exactly when segment zero is not empty and the whole frame fits, and then
gives the end of the last segment. -/
theorem totalSize_eq_ok {p : Mem} {n cap t : Nat} :
    totalSize p n cap = .ok t ↔
      segmentWords p 0 ≠ 0 ∧ t = segmentOffset p n n ∧ t ≤ cap := by
  have hmono := segmentOffset_mono p n 0 n
  simp only [Nat.zero_add, segmentOffset_zero] at hmono
  unfold totalSize
  split
  · next h =>
    simp only [reduceCtorEq, false_iff, not_and]
    rintro _ rfl
    omega
  · next h =>
    split
    · next h0 => simp [h0]
    · next h0 =>
      have hfits : segmentOffset p n 0 ≤ cap := by rw [segmentOffset_zero]; omega
      have := totalSizeFrom_eq_ok (t := t) n 0 hfits
      rw [segmentOffset_zero, Nat.zero_add] at this
      rw [this]
      simp [h0]

/-- `total_size` never reports success as an error. -/
theorem totalSizeFrom_error {p : Mem} {cap k i total : Nat} {rc : Result}
    (h : totalSizeFrom p cap k i total = .error rc) : rc ≠ .ok := by
  induction k generalizing i total with
  | zero => cases h
  | succ k ih =>
    rw [totalSizeFrom] at h
    split at h
    · cases h; simp
    · exact ih h

theorem totalSize_error {p : Mem} {n cap : Nat} {rc : Result}
    (h : totalSize p n cap = .error rc) : rc ≠ .ok := by
  unfold totalSize at h
  split at h
  · cases h; simp
  · split at h
    · cases h; simp
    · exact totalSizeFrom_error h

/-- A frame is longer than its table: segment zero is not empty. -/
theorem tableSize_lt_of_totalSize {p : Mem} {n cap t : Nat} (hn : 1 ≤ n)
    (h : totalSize p n cap = .ok t) : tableSize n < t := by
  obtain ⟨h0, rfl, -⟩ := totalSize_eq_ok.1 h
  obtain ⟨k, rfl⟩ := Nat.exists_eq_add_of_le hn
  have := segmentOffset_mono p (1 + k) 1 k
  rw [segmentOffset_succ, segmentOffset_zero] at this
  omega

/-! ## One byte at a time -/

/-- What holds of a framer between two bytes: the current phase is not complete, and its target is
the one its phase has set. -/
structure Framer.Inv (f : Framer) : Prop where
  lt : f.used < f.target
  count : f.phase = 0 → f.target = 4
  table : f.phase = 1 → 1 ≤ f.segments ∧ f.target = tableSize f.segments

theorem framerReset_inv (f : Framer) : (framerReset f).Inv :=
  ⟨by simp [framerReset], fun _ => rfl, by simp [framerReset]⟩

section
variable {σ : Type} (callback : σ → Bytes → σ × Result)

/-- The framer's buffer after `bs` more bytes. -/
def Framer.fill (f : Framer) (bs : Bytes) : Framer :=
  { f with buffer := f.buffer.write f.used bs, used := f.used + bs.length }

/-- Feed one byte. -/
def push (f : Framer) (s : σ) (b : UInt8) : Framer × σ :=
  let f := f.fill [b]
  if f.used ≠ f.target then (f, s) else complete callback f s

/-- The same outcome, `k` more bytes into the input. -/
def FeedResult.advance (r : FeedResult σ) (k : Nat) : FeedResult σ :=
  { r with consumed := r.consumed + k }

@[simp] theorem FeedResult.advance_advance (r : FeedResult σ) (k j : Nat) :
    (r.advance k).advance j = r.advance (k + j) := by
  simp [advance, Nat.add_assoc]

@[simp] theorem FeedResult.advance_zero (r : FeedResult σ) : r.advance 0 = r := rfl

/-- Feed bytes one at a time, up to the first error. -/
def pushAll : Framer → σ → Bytes → FeedResult σ
  | f, s, [] => ⟨f, s, 0, f.error⟩
  | f, s, b :: bs =>
    let p := push callback f s b
    (if p.1.error ≠ .ok then ⟨p.1, p.2, 0, p.1.error⟩ else pushAll p.1 p.2 bs).advance 1

/-- Go on with `rest` from what a byte or a phase has left, unless that is an error. -/
def resume (p : Framer × σ) (rest : Bytes) : FeedResult σ :=
  if p.1.error ≠ .ok then ⟨p.1, p.2, 0, p.1.error⟩ else pushAll callback p.1 p.2 rest

theorem pushAll_cons (f : Framer) (s : σ) (b : UInt8) (bs : Bytes) :
    pushAll callback f s (b :: bs) = (resume callback (push callback f s b) bs).advance 1 := rfl

theorem resume_of_ok {p : Framer × σ} (rest : Bytes) (h : p.1.error = .ok) :
    resume callback p rest = pushAll callback p.1 p.2 rest := if_neg (by simp [h])

theorem resume_of_error {p : Framer × σ} (rest : Bytes) (h : p.1.error ≠ .ok) :
    resume callback p rest = ⟨p.1, p.2, 0, p.1.error⟩ := if_pos h

theorem complete_count {f : Framer} (s : σ) (h0 : f.phase = 0)
    (hcount : u32 f.buffer 0 < maxSegments) (hfit : tableSize (u32 f.buffer 0 + 1) ≤ f.capacity) :
    complete callback f s =
      ({ f with segments := u32 f.buffer 0 + 1, target := tableSize (u32 f.buffer 0 + 1),
                phase := 1 }, s) := by
  rw [complete, if_pos h0]
  dsimp only
  rw [if_neg (by omega), if_neg (by omega)]

theorem complete_table {f : Framer} (s : σ) {total : Nat} (h1 : f.phase = 1)
    (htot : totalSize f.buffer f.segments f.capacity = .ok total) :
    complete callback f s = ({ f with target := total, phase := 2 }, s) := by
  rw [complete, if_neg (by omega), if_pos h1, htot]

theorem complete_frame {f : Framer} (s : σ) (h0 : f.phase ≠ 0) (h1 : f.phase ≠ 1) :
    complete callback f s =
      (if (callback s (f.buffer.read 0 f.used)).2 ≠ .ok then
        { f with error := (callback s (f.buffer.read 0 f.used)).2 } else framerReset f,
        (callback s (f.buffer.read 0 f.used)).1) := by
  rw [complete, if_neg h0, if_neg h1]
  dsimp only
  split <;> rfl

/-- The first two phases do not call the callback. -/
theorem complete_state {f : Framer} (s : σ) (h : f.phase = 0 ∨ f.phase = 1) :
    (complete callback f s).2 = s := by
  unfold complete
  rcases h with h | h
  · rw [if_pos h]
    dsimp only
    split
    · rfl
    · split <;> rfl
  · rw [if_neg (by omega), if_pos h]
    split <;> rfl

theorem complete_capacity (f : Framer) (s : σ) : (complete callback f s).1.capacity = f.capacity := by
  unfold complete
  split
  · dsimp only
    split
    · rfl
    · split <;> rfl
  · split
    · split <;> rfl
    · dsimp only
      split <;> rfl

/-- What the end of a phase does when it is not an error: the segment count sets the table's size,
the table the frame's size, and the frame goes to the callback. -/
theorem complete_cases {f f' : Framer} {s s' : σ} (h : complete callback f s = (f', s'))
    (herr : f'.error = .ok) :
    (f.phase = 0 ∧ u32 f.buffer 0 < maxSegments ∧ tableSize (u32 f.buffer 0 + 1) ≤ f.capacity ∧
      f' = { f with segments := u32 f.buffer 0 + 1, target := tableSize (u32 f.buffer 0 + 1),
                    phase := 1 } ∧ s' = s) ∨
    (f.phase = 1 ∧ ∃ total, totalSize f.buffer f.segments f.capacity = .ok total ∧
      f' = { f with target := total, phase := 2 } ∧ s' = s) ∨
    (f.phase ≠ 0 ∧ f.phase ≠ 1 ∧ callback s (f.buffer.read 0 f.used) = (s', .ok) ∧
      f' = framerReset f) := by
  unfold complete at h
  split at h
  · next h0 =>
    dsimp only at h
    split at h
    · cases h; cases herr
    · next hm =>
      split at h
      · cases h; cases herr
      · next ht =>
        cases h
        exact .inl ⟨h0, by omega, by omega, rfl, rfl⟩
  · next h0 =>
    split at h
    · next h1 =>
      cases htot : totalSize f.buffer f.segments f.capacity with
      | error rc =>
        rw [htot] at h
        cases h
        exact absurd herr (totalSize_error htot)
      | ok total =>
        rw [htot] at h
        cases h
        exact .inr (.inl ⟨h1, total, rfl, rfl, rfl⟩)
    · next h1 =>
      dsimp only at h
      split at h
      · next hrc => cases h; exact absurd herr hrc
      · next hrc =>
        cases h
        exact .inr (.inr ⟨h0, h1, Prod.ext rfl (not_not.1 hrc), rfl⟩)

/-- The end of a phase, when it is not an error, leaves the next phase incomplete. -/
theorem complete_inv {f : Framer} {s : σ} (hused : f.used = f.target)
    (hcount : f.phase = 0 → f.target = 4)
    (htable : f.phase = 1 → 1 ≤ f.segments ∧ f.target = tableSize f.segments)
    (herr : (complete callback f s).1.error = .ok) : (complete callback f s).1.Inv := by
  rcases complete_cases callback Prod.mk.eta.symm herr with
    ⟨h0, -, -, he, -⟩ | ⟨h1, total, htot, he, -⟩ | ⟨-, -, -, he⟩ <;> rw [he]
  · have := hcount h0
    exact ⟨by simp only [tableSize]; omega, by simp, fun _ => ⟨by simp, rfl⟩⟩
  · obtain ⟨hn, ht⟩ := htable h1
    have := tableSize_lt_of_totalSize hn htot
    exact ⟨by simp only; omega, by simp, by simp⟩
  · exact framerReset_inv f

/-- A byte that is no error leaves the framer between two bytes. -/
theorem push_inv {f : Framer} {s : σ} {b : UInt8} (hf : f.Inv)
    (herr : (push callback f s b).1.error = .ok) : (push callback f s b).1.Inv := by
  have hlt := hf.lt
  unfold push at herr ⊢
  dsimp only at herr ⊢
  split
  · next hne =>
    exact ⟨by simp only [Framer.fill, List.length_singleton] at hne ⊢; omega, hf.count, hf.table⟩
  · next he =>
    rw [if_neg he] at herr
    exact complete_inv callback (f := f.fill [b]) (not_not.1 he) hf.count hf.table herr

/-! ## Rounds and bytes -/

/-- Filling the buffer in two steps. -/
theorem Framer.fill_fill (f : Framer) (xs ys : Bytes) : (f.fill xs).fill ys = f.fill (xs ++ ys) := by
  simp [fill, Mem.write_append, Nat.add_assoc]

/-- Bytes that do not complete the phase only fill the buffer. -/
theorem pushAll_fill {f : Framer} {s : σ} (bs rest : Bytes) (herr : f.error = .ok)
    (hlt : f.used + bs.length < f.target) :
    pushAll callback f s (bs ++ rest) = (pushAll callback (f.fill bs) s rest).advance bs.length := by
  induction bs generalizing f with
  | nil => simp [Framer.fill]
  | cons b bs ih =>
    rw [List.length_cons] at hlt
    have hne : (f.fill [b]).used ≠ (f.fill [b]).target := by
      simp only [Framer.fill, List.length_singleton]; omega
    have hpush : push callback f s b = (f.fill [b], s) := if_pos hne
    have herr' : (f.fill [b]).error = .ok := herr
    rw [List.cons_append, pushAll_cons, hpush, resume_of_ok callback _ herr', ih herr' (by simp only [Framer.fill, List.length_singleton]; omega), Framer.fill_fill,
      FeedResult.advance_advance, List.singleton_append, List.length_cons]

/-- Bytes that complete the phase fill the buffer and then end the phase. -/
theorem pushAll_complete {f : Framer} {s : σ} (bs rest : Bytes) (herr : f.error = .ok)
    (hlt : f.used < f.target) (hlen : f.used + bs.length = f.target) :
    pushAll callback f s (bs ++ rest) =
      (resume callback (complete callback (f.fill bs) s) rest).advance bs.length := by
  obtain ⟨init, b, rfl⟩ : ∃ init b, bs = init ++ [b] :=
    ⟨bs.dropLast, bs.getLast (by rintro rfl; simp at hlen; omega),
      (List.dropLast_concat_getLast _).symm⟩
  rw [List.length_append, List.length_singleton] at hlen
  have heq : ¬ ((f.fill init).fill [b]).used ≠ ((f.fill init).fill [b]).target := by
    simp only [Framer.fill, List.length_singleton]; omega
  have hpush : push callback (f.fill init) s b = complete callback (f.fill (init ++ [b])) s := by
    rw [← Framer.fill_fill]; exact if_neg heq
  rw [List.append_assoc, List.singleton_append, pushAll_fill callback init _ herr (by omega),
    pushAll_cons, hpush, FeedResult.advance_advance, List.length_append, List.length_singleton,
    Nat.add_comm 1]

/-- The loop of `cf_capnp_feed` is the byte framer: a round takes bytes up to the end of the phase,
and at least one. -/
theorem feedLoop_eq_pushAll (fuel : Nat) {f : Framer} {s : σ} {rest : Bytes} (c : Nat) (hf : f.Inv)
    (herr : f.error = .ok) (hfuel : rest.length ≤ fuel) :
    feedLoop callback fuel f s rest c = (pushAll callback f s rest).advance c := by
  induction fuel generalizing f s rest c with
  | zero =>
    obtain rfl : rest = [] := List.eq_nil_of_length_eq_zero (by omega)
    simp [feedLoop, pushAll, FeedResult.advance, herr]
  | succ fuel ih =>
    rw [feedLoop]
    split
    · next hnil => subst hnil; simp [pushAll, FeedResult.advance, herr]
    next hne =>
    have hpos := List.length_pos_iff.2 hne
    have hlt := hf.lt
    obtain ⟨n, hn⟩ : ∃ n, n = min (f.target - f.used) rest.length := ⟨_, rfl⟩
    have hlen : (rest.take n).length = n := by rw [List.length_take]; omega
    have hfill : { f with buffer := f.buffer.write f.used (rest.take n), used := f.used + n } =
        f.fill (rest.take n) := by rw [Framer.fill, hlen]
    have hdrop : (rest.drop n).length ≤ fuel := by rw [List.length_drop]; omega
    simp only [← hn, hfill]
    conv_rhs => rw [← List.take_append_drop n rest]
    split
    · next hpart =>
      have hlt' : f.used + (rest.take n).length < f.target := by
        omega
      have hf' : (f.fill (rest.take n)).Inv := ⟨hlt', hf.count, hf.table⟩
      rw [pushAll_fill callback _ _ herr hlt', ih _ hf' herr hdrop, FeedResult.advance_advance,
        hlen, Nat.add_comm c]
    · next hfull =>
      have hlen' : f.used + (rest.take n).length = f.target := by
        omega
      rw [pushAll_complete callback _ _ herr hlt hlen', resume, hlen]
      split
      · next hbad => simp [FeedResult.advance, Nat.add_comm]
      · next hgood =>
        have hf' := complete_inv callback (f := f.fill (rest.take n)) hlen' hf.count hf.table
          (not_not.1 hgood)
        rw [ih _ hf' (not_not.1 hgood) hdrop, FeedResult.advance_advance, Nat.add_comm c]

/-- A call of `cf_capnp_feed` is the byte framer on its input. -/
theorem capnpFeed_eq_pushAll {f : Framer} (s : σ) (input : Bytes) (hf : f.Inv)
    (herr : f.error = .ok) : capnpFeed callback f s input = pushAll callback f s input := by
  rw [capnpFeed, if_neg (by simp [herr]), feedLoop_eq_pushAll callback _ 0 hf herr le_rfl,
    FeedResult.advance_zero]

/-! ## Chunks -/

/-- The byte framer returns the error it stops at. -/
theorem pushAll_result (f : Framer) (s : σ) (bs : Bytes) :
    (pushAll callback f s bs).result = (pushAll callback f s bs).framer.error := by
  induction bs generalizing f s with
  | nil => rfl
  | cons b bs ih =>
    rw [pushAll_cons, resume]
    split
    · rfl
    · exact ih _ _

/-- The byte framer, when it meets no error, ends between two bytes. -/
theorem pushAll_inv {f : Framer} {s : σ} {bs : Bytes} (hf : f.Inv)
    (herr : (pushAll callback f s bs).framer.error = .ok) :
    (pushAll callback f s bs).framer.Inv := by
  induction bs generalizing f s with
  | nil => exact hf
  | cons b bs ih =>
    rw [pushAll_cons, resume] at herr ⊢
    split at herr
    · next hbad => exact absurd herr hbad
    · next hgood =>
      rw [if_neg hgood]
      exact ih (push_inv callback hf (not_not.1 hgood)) herr

/-- The byte framer goes on where it stopped. -/
theorem pushAll_append {f : Framer} {s : σ} (xs ys : Bytes) (herr : f.error = .ok) :
    pushAll callback f s (xs ++ ys) =
      (resume callback ((pushAll callback f s xs).framer, (pushAll callback f s xs).state) ys).advance
        (pushAll callback f s xs).consumed := by
  induction xs generalizing f s with
  | nil => simp [pushAll, resume, herr]
  | cons x xs ih =>
    by_cases hgood : (push callback f s x).1.error = .ok
    · have hstep : ∀ zs, pushAll callback f s (x :: zs) =
          (pushAll callback (push callback f s x).1 (push callback f s x).2 zs).advance 1 :=
        fun zs => by rw [pushAll_cons, resume_of_ok callback zs hgood]
      rw [List.cons_append, hstep, hstep, ih hgood, FeedResult.advance_advance]
      rfl
    · have hstep : ∀ zs, pushAll callback f s (x :: zs) =
          ⟨(push callback f s x).1, (push callback f s x).2, 1, (push callback f s x).1.error⟩ :=
        fun zs => by rw [pushAll_cons, resume_of_error callback zs hgood]; rfl
      rw [List.cons_append, hstep, hstep, resume_of_error callback ys hgood]
      rfl

/-- Chunks fed one after another with `cf_capnp_feed`: the bytes consumed add up, and the result is
the first error a call returns. -/
def feedAll : Framer → σ → List Bytes → FeedResult σ
  | f, s, [] => ⟨f, s, 0, .ok⟩
  | f, s, chunk :: chunks =>
    let r := capnpFeed callback f s chunk
    let rest := feedAll r.framer r.state chunks
    { rest with consumed := r.consumed + rest.consumed
                result := if r.result ≠ .ok then r.result else rest.result }

/-- An error poisons the framer: later chunks are refused. -/
theorem feedAll_of_error {f : Framer} (s : σ) (chunks : List Bytes) (herr : f.error ≠ .ok) :
    feedAll callback f s chunks = ⟨f, s, 0, if chunks = [] then .ok else f.error⟩ := by
  induction chunks with
  | nil => rfl
  | cons c cs ih =>
    have hfeed : capnpFeed callback f s c = ⟨f, s, 0, f.error⟩ := if_pos herr
    rw [feedAll]
    simp [hfeed, ih, herr]

/-- Feeding chunks is feeding their bytes. -/
theorem feedAll_eq_pushAll {f : Framer} (s : σ) (chunks : List Bytes) (hf : f.Inv)
    (herr : f.error = .ok) : feedAll callback f s chunks = pushAll callback f s chunks.flatten := by
  induction chunks generalizing f s with
  | nil => simp [feedAll, pushAll, herr]
  | cons c cs ih =>
    have hres := pushAll_result callback f s c
    rw [feedAll, capnpFeed_eq_pushAll callback s c hf herr, List.flatten_cons,
      pushAll_append callback c _ herr]
    by_cases hgood : (pushAll callback f s c).framer.error = .ok
    · have hok : (pushAll callback f s c).result = .ok := hres.trans hgood
      rw [resume_of_ok callback _ hgood, ih _ (pushAll_inv callback hf hgood) hgood]
      simp [FeedResult.advance, hok, Nat.add_comm]
    · rw [resume_of_error callback _ hgood, feedAll_of_error callback _ _ hgood]
      simp [FeedResult.advance, hres, hgood]

/-- The callback that also keeps the frames it was given. -/
def logging : σ × List Bytes → Bytes → (σ × List Bytes) × Result :=
  fun s frame => (((callback s.1 frame).1, s.2 ++ [frame]), (callback s.1 frame).2)

end

/-- A framer that `cf_capnp_framer_init` returns is at the start of a frame. -/
theorem framerInit_eq_ok {buffer : Mem} {cap : Nat} {f : Framer} (h : framerInit buffer cap = .ok f) :
    16 ≤ cap ∧ cap ≤ messageMax ∧ f = framerReset ⟨buffer, cap, 0, 0, 0, 0, .ok⟩ := by
  unfold framerInit at h
  split at h
  · cases h
  · cases h
    exact ⟨by omega, by omega, rfl⟩

/-- **Framing is independent of chunking.** Two ways of cutting one stream into chunks give the same
frames to the callback, the same callback state, the same number of bytes consumed, the same framer
with the same buffered bytes, the same first error and the same verdict at the end of the stream. -/
theorem feedAll_chunks {σ : Type} {buffer : Mem} {cap : Nat} {f : Framer}
    (hinit : framerInit buffer cap = .ok f) (callback : σ → Bytes → σ × Result) (s : σ)
    {chunks chunks' : List Bytes} (hstream : chunks.flatten = chunks'.flatten) :
    let r := feedAll (logging callback) f (s, []) chunks
    let r' := feedAll (logging callback) f (s, []) chunks'
    r.state.2 = r'.state.2 ∧ r.state.1 = r'.state.1 ∧ r.consumed = r'.consumed ∧
      r.result = r'.result ∧ r.framer = r'.framer ∧
      r.framer.buffer.read 0 r.framer.used = r'.framer.buffer.read 0 r'.framer.used ∧
      capnpEof r.framer = capnpEof r'.framer := by
  obtain ⟨-, -, rfl⟩ := framerInit_eq_ok hinit
  have hf := framerReset_inv ⟨buffer, cap, 0, 0, 0, 0, .ok⟩
  have heq : ∀ cs, feedAll (logging callback) (framerReset ⟨buffer, cap, 0, 0, 0, 0, .ok⟩) (s, []) cs =
      pushAll (logging callback) (framerReset ⟨buffer, cap, 0, 0, 0, 0, .ok⟩) (s, []) cs.flatten :=
    fun cs => feedAll_eq_pushAll (logging callback) (s, []) cs hf rfl
  simp only [heq, hstream, and_self]

/-- A byte at a time and all at once, for a callback that counts frames. -/
theorem feedAll_chunks_split :
    let callback : Nat → Bytes → Nat × Result := fun s _ => (s + 1, .ok)
    let f := framerReset ⟨fun _ => 0, 16, 0, 0, 0, 0, .ok⟩
    (feedAll (logging callback) f (0, []) [[0], [], [0, 0]]).consumed =
      (feedAll (logging callback) f (0, []) [[0, 0, 0]]).consumed :=
  (@feedAll_chunks Nat (fun _ => 0) 16 _ rfl (fun s _ => (s + 1, .ok)) 0 [[0], [], [0, 0]]
    [[0, 0, 0]] rfl).2.2.1

end EspCfTunnel.Framing
