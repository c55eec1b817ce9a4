import EspCfTunnel.H2.History

/-!
# Slots and history agree

The slots of a session say what the application has been told so far, and the history of callbacks
says it too. `Story` states how the two agree, at any point of any event. Two parts of it hold only in
runs of a certain kind, so they are stated under a proposition for it: `p` for the number of streams
that the application holds, of which there may be `k`, and `q` for the order of callbacks.
-/

namespace EspCfTunnel.H2

open EspCfTunnel StateLogic

/-! ## The agreement -/

/-- The body bytes of a stream that an event brings. -/
def Event.bytes (id : Int) : Event → Bytes
  | .data id' bytes => if id' = id then bytes else []
  | _ => []

/-- The body of a stream that has arrived. -/
def payload (id : Int) (past : List Event) : Bytes := past.flatMap (Event.bytes id)

/-- The event is the frame that ends the stream. -/
def Event.last (id : Int) : Event → Bool
  | .frame f => f.stream = id ∧ (f.type = .headers ∨ f.type = .data) ∧ f.endStream
  | _ => false

/-- The end of the stream has arrived. -/
def Ended (id : Int) (past : List Event) : Prop := ∃ e ∈ past, e.last id = true

instance (id : Int) (past : List Event) : Decidable (Ended id past) :=
  inferInstanceAs (Decidable (∃ e ∈ past, e.last id = true))

/-- How many slots hold an HTTP stream whose headers are done and that the application has not
refused; streams that are reset and wait to be closed are counted too. -/
def Session.held (h : Session) (log : List Note) : Nat :=
  Table.tally (fun s => s.headersDone ∧ s.kind = .http ∧ s.id ∉ log.filterMap Note.refused) h.streams

/-- How the slots and the history agree. `seen` are the streams that have been in a slot, `past` the
events so far. For the stream `x`, which is being served, the parts about its progress are left open,
and for the stream `y`, which is being closed, that it is not closed. -/
structure Story (p : Prop) (k : Nat) (q : Prop) (env : Env) (past : List Event) (seen : Int → Prop) (x y : Int)
    (log : List Note) (h : Session) : Prop where
  distinct : h.Distinct
  zero : 0 ∉ env.opened
  known : ∀ id, seen id → id ∈ env.opened
  slot : ∀ i, (h.streams i).id ≠ 0 → seen (h.streams i).id
  told : ∀ n ∈ log, ∀ id, n.stream = some id → seen id
  kept : ∀ id, seen id → Closed id log ∨ ∃ i, (h.streams i).id = id
  closed : ∀ i, (h.streams i).id ≠ 0 → (h.streams i).id ≠ y → ¬ Closed (h.streams i).id log
  reset : ∀ i, .reset (h.streams i).id ∈ log → (h.streams i).reset = true
  response : ∀ i, (h.streams i).response = true → .response (h.streams i).id ∈ log
  fresh : ∀ i, (h.streams i).id ≠ 0 → (h.streams i).headersDone = false →
    ∀ r, .request r ∈ log → r.stream ≠ (h.streams i).id
  answered : ∀ n result, .returned n result ∈ log → n ∈ log
  holds : ∀ r, .returned (.request r) .ok ∈ log → Closed r.stream log ∨
    ∃ i, (h.streams i).id = r.stream ∧ (h.streams i).headersDone = true ∧ (h.streams i).kind = r.kind
  verdict : ∀ r r' rc, .returned (.request r) .ok ∈ log → .returned (.request r') rc ∈ log →
    r'.stream = r.stream → rc = .ok
  once : ((log.filterMap Note.accepted).map Request.stream).Nodup
  early : ∀ id bytes, .data id bytes ∈ past → id ∈ env.opened
  limit : h.appLimit = k
  room : p → h.held log ≤ k
  free : p → History.Obeys (Free k) log
  order : q → History.Obeys Allowed log
  accepted : q → h.error = .ok → ∀ i, (h.streams i).id ≠ 0 → (h.streams i).id ≠ x →
    (h.streams i).headersDone = true → (h.streams i).reset = false → Accepted (h.streams i).id log
  current : q → h.error = .ok → ∀ i, (h.streams i).id ≠ 0 → (h.streams i).id ≠ x →
    (h.streams i).reset = false → env.block = some (h.streams i).id →
    h.headerStream = (h.streams i).id
  waiting : q → h.error = .ok → ∀ i, (h.streams i).id ≠ 0 → (h.streams i).id ≠ x →
    (h.streams i).headersDone = false → (h.streams i).reset = false →
    env.block = some (h.streams i).id ∨ .abandon (h.streams i).id ∈ past
  whole : q → h.error = .ok → ∀ i, (h.streams i).id ≠ 0 → (h.streams i).id ≠ x →
    (h.streams i).reset = false → received (h.streams i).id log = payload (h.streams i).id past
  started : q → ∀ id, received id log <+: payload id past
  ended : q → ∀ id bytes, .data id bytes true ∈ log → Ended id past

section
variable {p q : Prop} {k : Nat} {env : Env} {past : List Event} {seen : Int → Prop} {x y : Int}
  {log log' : List Note} {h h' : Session}

/-- The requests that the application holds are in slots. -/
theorem Story.length_openRequests (hs : Story p k q env past seen x y log h) :
    (openRequests log).length ≤ h.held log := by
  have hnodup : ((openRequests log).map Request.stream).Nodup :=
    hs.once.sublist (List.filter_sublist.map _)
  rw [← List.length_map (f := Request.stream)]
  refine Table.length_le_tally (f := Stream.id) hnodup fun id hid => ?_
  obtain ⟨r, hr, rfl⟩ := List.mem_map.1 hid
  obtain ⟨hmem, hopen⟩ := List.mem_filter.1 hr
  obtain ⟨hkind, hclosed⟩ := of_decide_eq_true hopen
  rw [mem_accepted] at hmem
  have hno : ¬ Closed r.stream log := by
    rw [← any_closes, hclosed]
    exact Bool.false_ne_true
  obtain ⟨i, hi, hdone, hik⟩ := (hs.holds r hmem).resolve_left hno
  refine ⟨i, decide_eq_true ⟨hdone, hik.trans hkind, fun href => ?_⟩, hi⟩
  obtain ⟨r', rc, hmem', hrc, heq⟩ := mem_refused.1 href
  exact hrc (hs.verdict r r' rc hmem hmem' (heq.trans hi))

/-- API calls keep the agreement. -/
theorem Story.effect {m : Prop} (hs : Story p k q env past seen x y log h)
    (he : Effect m log h log' h') : Story p k q env past seen x y log' h' := by
  have hid i : (h'.streams i).id = (h.streams i).id := (he.stream i).1
  have hkind i : (h'.streams i).kind = (h.streams i).kind := (he.stream i).2.1
  have hdone i : (h'.streams i).headersDone = (h.streams i).headersDone := (he.stream i).2.2
  have hreset i : (h'.streams i).reset = false → (h.streams i).reset = false := by
    intro hno
    by_contra hyes
    rw [he.kept i (by simpa using hyes)] at hno
    cases hno
  obtain ⟨l, rfl, hl⟩ := he.notes
  have hinert : ∀ n ∈ l, n.inert = true := fun n hn => (hl n hn).1
  have hclosed id : Closed id (log ++ l) ↔ Closed id log := closed_append_inert hinert
  have hreceived id : received id (log ++ l) = received id log := received_append_inert hinert
  have hreturned n rc : .returned n rc ∈ log ++ l ↔ .returned n rc ∈ log := mem_append_inert hinert rfl
  have hheld : h'.held (log ++ l) = h.held log := by
    refine Table.tally_congr fun i => ?_
    rw [hid, hkind, hdone, filterMap_append_inert refused_of_inert hinert]
  constructor
  · exact he.distinct hs.distinct
  · exact hs.zero
  · exact hs.known
  · simpa only [hid] using hs.slot
  · intro n hn id hstream
    rcases List.mem_append.1 hn with hn | hn
    · exact hs.told n hn id hstream
    · obtain ⟨i, rfl, h0⟩ := (hl n hn).2 id hstream
      exact hs.slot i h0
  · simpa only [hid, hclosed] using hs.kept
  · simpa only [hid, hclosed] using hs.closed
  · intro i hi
    rw [hid] at hi
    rcases he.marked i hi with hi | hi
    · exact he.kept i (hs.reset i hi)
    · exact hi
  · intro i hi
    rw [hid]
    rcases he.response i hi with hi | hi
    · exact List.mem_append_left l (hs.response i hi)
    · exact hi
  · intro i h0 hi r hr
    rw [hid] at h0 ⊢
    rw [hdone] at hi
    exact hs.fresh i h0 hi r ((mem_append_inert hinert rfl).1 hr)
  · intro n rc hn
    exact List.mem_append_left l (hs.answered n rc ((hreturned n rc).1 hn))
  · simpa only [hreturned, hclosed, hid, hdone, hkind] using hs.holds
  · simpa only [hreturned] using hs.verdict
  · rw [filterMap_append_inert accepted_of_inert hinert]
    exact hs.once
  · exact hs.early
  · exact he.appLimit.trans hs.limit
  · rw [hheld]
    exact hs.room
  · exact fun hp => obeys_append_inert (free_of_inert _) hinert (hs.free hp)
  · exact fun hq => obeys_append_inert allowed_of_inert hinert (hs.order hq)
  · intro hq hok i h0 hx hi hr
    rw [hid] at h0 hx ⊢
    rw [hdone] at hi
    exact (hs.accepted hq (he.error hok) i h0 hx hi (hreset i hr)).append l
  · intro hq hok i h0 hx hr hb
    rw [hid] at h0 hx hb ⊢
    rw [he.headerStream]
    exact hs.current hq (he.error hok) i h0 hx (hreset i hr) hb
  · intro hq hok i h0 hx hi hr
    rw [hid] at h0 hx ⊢
    rw [hdone] at hi
    exact hs.waiting hq (he.error hok) i h0 hx hi (hreset i hr)
  · intro hq hok i h0 hx hr
    rw [hid] at h0 hx ⊢
    rw [hreceived]
    exact hs.whole hq (he.error hok) i h0 hx (hreset i hr)
  · simpa only [hreceived] using hs.started
  · intro hq id bytes hn
    exact hs.ended hq id bytes ((mem_append_inert hinert rfl).1 hn)

theorem Story.quiet (hs : Story p k q env past seen x y log h) (hq : Quiet h h') :
    Story p k q env past seen x y log h' :=
  hs.effect (hq.effect (m := True))

theorem held_concat_le (h : Session) (log : List Note) (n : Note) :
    h.held (log ++ [n]) ≤ h.held log := by
  refine Table.tally_mono fun i hi => ?_
  obtain ⟨hdone, hkind, hno⟩ := of_decide_eq_true hi
  refine decide_eq_true ⟨hdone, hkind, fun hmem => hno ?_⟩
  rw [List.filterMap_append]
  exact List.mem_append_left _ hmem

/-- What is needed to note a callback or its return. -/
structure Apt (p : Prop) (k : Nat) (q : Prop) (past : List Event) (seen : Int → Prop) (x y : Int) (log : List Note)
    (h : Session) (n : Note) : Prop where
  active : n.inert = false
  told : ∀ id, n.stream = some id → seen id
  closed : ∀ id error, n = .closed id error → id = y
  fresh : ∀ r, n = .request r → ∀ i, (h.streams i).id ≠ 0 → (h.streams i).headersDone = false →
    r.stream ≠ (h.streams i).id
  answered : ∀ n' result, n = .returned n' result → n' ∈ log
  holds : ∀ r, n = .returned (.request r) .ok →
    ∃ i, (h.streams i).id = r.stream ∧ (h.streams i).headersDone = true ∧ (h.streams i).kind = r.kind
  verdict : ∀ r rc, n = .returned (.request r) rc → ∀ r' rc', .returned (.request r') rc' ∈ log →
    r'.stream ≠ r.stream
  free : p → Free k log n
  order : q → Allowed log n
  whole : ∀ id, id ≠ x → n.bytes id = []
  started : q → received x log ++ n.bytes x <+: payload x past
  ended : ∀ id bytes, n = .data id bytes true → Ended id past

/-- A callback or its return is noted. -/
theorem Story.note {n : Note} (hs : Story p k q env past seen x y log h)
    (hn : Apt p k q past seen x y log h n) : Story p k q env past seen x y (log ++ [n]) h := by
  have hmem : ∀ {a : Note}, a ∈ log ++ [n] → a ∈ log ∨ n = a := by
    intro a ha
    rcases List.mem_append.1 ha with ha | ha
    · exact .inl ha
    · exact .inr (List.mem_singleton.1 ha).symm
  refine ⟨hs.distinct, hs.zero, hs.known, hs.slot, fun a ha id hid => ?_,
    fun id hid => (hs.kept id hid).imp_left (·.append _), fun i h0 hy => ?_, fun i hi => ?_,
    fun i hi => List.mem_append_left _ (hs.response i hi), fun i h0 hi r hr => ?_, fun a rc ha => ?_,
    fun r hr => ?_, fun r r' rc hr hr' heq => ?_, ?_, hs.early, hs.limit,
    fun hp => (held_concat_le h log n).trans (hs.room hp),
    fun hp => History.obeys_concat.2 ⟨hs.free hp, hn.free hp⟩,
    fun hq => History.obeys_concat.2 ⟨hs.order hq, hn.order hq⟩,
    fun hq hok i h0 hx hi hr => (hs.accepted hq hok i h0 hx hi hr).append _, hs.current, hs.waiting,
    fun hq hok i h0 hx hr => ?_, fun hq id => ?_, fun hq id bytes hd => ?_⟩
  · rcases hmem ha with ha | rfl
    · exact hs.told a ha id hid
    · exact hn.told id hid
  · rintro ⟨error, hc⟩
    rcases hmem hc with hc | hc
    · exact hs.closed i h0 hy ⟨error, hc⟩
    · exact hy (hn.closed _ _ hc)
  · rcases hmem hi with hi | hi
    · exact hs.reset i hi
    · have hactive := hn.active
      rw [hi] at hactive
      cases hactive
  · rcases hmem hr with hr | hr
    · exact hs.fresh i h0 hi r hr
    · exact hn.fresh r hr i h0 hi
  · refine List.mem_append_left _ ?_
    rcases hmem ha with ha | ha
    · exact hs.answered a rc ha
    · exact hn.answered a rc ha
  · rcases hmem hr with hr | hr
    · exact (hs.holds r hr).imp_left (·.append _)
    · exact .inr (hn.holds r hr)
  · rcases hmem hr with hr | hr
    · rcases hmem hr' with hr' | hr'
      · exact hs.verdict r r' rc hr hr' heq
      · exact absurd heq.symm (hn.verdict r' rc hr' r .ok hr)
    · rcases hmem hr' with hr' | hr'
      · exact absurd heq (hn.verdict r .ok hr r' rc hr')
      · have hboth := hr.symm.trans hr'
        injection hboth with _ hrc
        exact hrc.symm
  · rw [List.filterMap_append, List.map_append]
    refine hs.once.append ?_ ?_
    · cases hn' : n.accepted with
      | none => simp [hn']
      | some r => simp [hn']
    · intro id hid hid'
      obtain ⟨r, hr, rfl⟩ := List.mem_map.1 hid
      obtain ⟨r', hr', heq⟩ := List.mem_map.1 hid'
      have hlast := List.mem_singleton.1 (mem_accepted.1 hr')
      exact hn.verdict r' .ok hlast.symm r .ok (mem_accepted.1 hr) heq.symm
  · rw [received_concat, hn.whole _ hx, List.append_nil]
    exact hs.whole hq hok i h0 hx hr
  · rw [received_concat]
    by_cases hx : id = x
    · rw [hx]
      exact hn.started hq
    · rw [hn.whole id hx, List.append_nil]
      exact hs.started hq id
  · rcases hmem hd with hd | hd
    · exact hs.ended hq id bytes hd
    · exact hn.ended id bytes hd

/-! ### Moving on -/

theorem payload_concat (id : Int) (past : List Event) (e : Event) :
    payload id (past ++ [e]) = payload id past ++ e.bytes id := by
  simp [payload]

/-- An event begins, and from now on the stream `x` is being served. -/
theorem Story.enter (hs : Story p k q env past seen 0 0 log h) {env' : Env} {e : Event} (x : Int)
    (hopened : ∀ id ∈ env.opened, id ∈ env'.opened) (hzero : 0 ∉ env'.opened)
    (hblock : ∀ id, id ≠ x → (env'.block = some id ↔ env.block = some id))
    (hbytes : ∀ id, id ≠ x → e.bytes id = [])
    (hearly : ∀ id bytes, e = .data id bytes → id ∈ env'.opened) :
    Story p k q env' (past ++ [e]) seen x 0 log h :=
  { hs with
    zero := hzero
    known := fun id hid => hopened id (hs.known id hid)
    early := by
      intro id bytes hmem
      rcases List.mem_append.1 hmem with hmem | hmem
      · exact hopened id (hs.early id bytes hmem)
      · exact hearly id bytes (List.mem_singleton.1 hmem).symm
    accepted := fun hq hok i h0 _ => hs.accepted hq hok i h0 h0
    current := by
      intro hq hok i h0 hx hr hb
      exact hs.current hq hok i h0 h0 hr ((hblock _ hx).1 hb)
    waiting := by
      intro hq hok i h0 hx hi hr
      exact (hs.waiting hq hok i h0 h0 hi hr).imp (hblock _ hx).2 (List.mem_append_left _)
    whole := by
      intro hq hok i h0 hx hr
      rw [payload_concat, hbytes _ hx, List.append_nil]
      exact hs.whole hq hok i h0 h0 hr
    started := by
      intro hq id
      rw [payload_concat]
      exact (hs.started hq id).trans (List.prefix_append _ _)
    ended := by
      intro hq id bytes hmem
      obtain ⟨f, hf, hrest⟩ := hs.ended hq id bytes hmem
      exact ⟨f, List.mem_append_left _ hf, hrest⟩ }

theorem bytes_of_ne_data {e : Event} (he : ∀ id bytes, e ≠ .data id bytes) (id : Int) :
    e.bytes id = [] := by
  cases e with
  | data id' bytes => exact absurd rfl (he id' bytes)
  | _ => rfl

/-- An event that no part of the agreement depends on. -/
theorem Story.pass (hs : Story p k q env past seen 0 0 log h) {e : Event}
    (he : ∀ id bytes, e ≠ .data id bytes) : Story p k q env (past ++ [e]) seen 0 0 log h :=
  hs.enter 0 (fun _ hid => hid) hs.zero (fun _ _ => Iff.rfl) (fun id _ => bytes_of_ne_data he id)
    fun id bytes heq => absurd heq (he id bytes)

/-- The stream has been served: what was left open for it holds again. -/
theorem Story.settle (hs : Story p k q env past seen x 0 log h)
    (hx : q → h.error = .ok → ∀ i, (h.streams i).id ≠ 0 → (h.streams i).id = x →
      (h.streams i).reset = false →
      ((h.streams i).headersDone = true → Accepted (h.streams i).id log) ∧
      (env.block = some (h.streams i).id → h.headerStream = (h.streams i).id) ∧
      ((h.streams i).headersDone = false →
        env.block = some (h.streams i).id ∨ .abandon (h.streams i).id ∈ past) ∧
      received (h.streams i).id log = payload (h.streams i).id past) :
    Story p k q env past seen 0 0 log h :=
  { hs with
    accepted := by
      intro hq hok i h0 _ hi hr
      by_cases hxi : (h.streams i).id = x
      · exact (hx hq hok i h0 hxi hr).1 hi
      · exact hs.accepted hq hok i h0 hxi hi hr
    current := by
      intro hq hok i h0 _ hr hb
      by_cases hxi : (h.streams i).id = x
      · exact (hx hq hok i h0 hxi hr).2.1 hb
      · exact hs.current hq hok i h0 hxi hr hb
    waiting := by
      intro hq hok i h0 _ hi hr
      by_cases hxi : (h.streams i).id = x
      · exact (hx hq hok i h0 hxi hr).2.2.1 hi
      · exact hs.waiting hq hok i h0 hxi hi hr
    whole := by
      intro hq hok i h0 _ hr
      by_cases hxi : (h.streams i).id = x
      · exact (hx hq hok i h0 hxi hr).2.2.2
      · exact hs.whole hq hok i h0 hxi hr }

/-- Nothing is left open for a stream that has been reset, or when the session has failed. -/
theorem Story.settle_reset (hs : Story p k q env past seen x 0 log h)
    (hx : ∀ i, (h.streams i).id = x → (h.streams i).reset = true ∨ h.error ≠ .ok) :
    Story p k q env past seen 0 0 log h := by
  refine hs.settle fun _ hok i _ hi hr => ?_
  rcases hx i hi with hreset | herror
  · rw [hreset] at hr
    cases hr
  · exact absurd hok herror

/-- While a header block is received, no other stream depends on where it is stored. -/
theorem Story.header (hs : Story p k q env past seen x y log h)
    (hblock : ∀ id, env.block = some id → id = x) (v : Int) :
    Story p k q env past seen x y log { h with headerStream := v } :=
  { hs with
    current := fun _ _ _ _ hx _ hb => absurd (hblock _ hb) hx }

/-- The stream that is being served gets its kind, or has its headers done. -/
theorem Story.advance (hs : Story p k q env past seen x y log h) {i : Fin slots} {s : Stream}
    (hsid : s.id = (h.streams i).id) (hreset : s.reset = (h.streams i).reset)
    (hresponse : s.response = (h.streams i).response) (hx : (h.streams i).id = x)
    (hdone : (h.streams i).headersDone = false)
    (hroom : p → (h.setStream i s).held log ≤ k) :
    Story p k q env past seen x y log (h.setStream i s) := by
  have hid j : ((h.setStream i s).streams j).id = (h.streams j).id := setStream_congr h hsid j
  have hkeep j : ((h.setStream i s).streams j).reset = (h.streams j).reset := setStream_congr h hreset j
  have hother : ∀ j, (h.streams j).id ≠ x → (h.setStream i s).streams j = h.streams j := by
    intro j hj
    refine setStream_of_ne h ?_ s
    rintro rfl
    exact hj hx
  refine ⟨?_, hs.zero, hs.known, ?_, hs.told, ?_, ?_, ?_, ?_, fun j h0 hj => ?_, hs.answered,
    fun r hr => ?_, hs.verdict, hs.once, hs.early, hs.limit, hroom, hs.free, hs.order, fun hq hok j h0 hj => ?_,
    fun hq hok j h0 hj => ?_, fun hq hok j h0 hj => ?_, fun hq hok j h0 hj => ?_, hs.started, hs.ended⟩
  · intro j k hj hjk
    rw [hid] at hj hjk
    rw [hid] at hjk
    exact hs.distinct j k hj hjk
  · simpa only [hid] using hs.slot
  · simpa only [hid] using hs.kept
  · simpa only [hid] using hs.closed
  · simpa only [hid, hkeep] using hs.reset
  · have hsame j : ((h.setStream i s).streams j).response = (h.streams j).response :=
      setStream_congr h hresponse j
    simpa only [hid, hsame] using hs.response
  · rw [hid] at h0 ⊢
    by_cases hji : j = i
    · subst hji
      exact hs.fresh j h0 hdone
    · rw [setStream_of_ne h hji] at hj
      exact hs.fresh j h0 hj
  · refine (hs.holds r hr).imp_right fun ⟨j, hj, hjd, hjk⟩ => ⟨j, ?_⟩
    have hji : j ≠ i := by
      rintro rfl
      rw [hdone] at hjd
      cases hjd
    rw [setStream_of_ne h hji]
    exact ⟨hj, hjd, hjk⟩
  all_goals
    rw [hid] at h0 hj
    rw [hother j hj]
  · exact hs.accepted hq hok j h0 hj
  · exact hs.current hq hok j h0 hj
  · exact hs.waiting hq hok j h0 hj
  · exact hs.whole hq hok j h0 hj

/-- A slot is given up: its stream is closed. -/
theorem Story.close (hs : Story p k q env past seen x y log h) {i : Fin slots}
    (hy : (h.streams i).id = y) (hclosed : Closed y log) :
    Story p k q env past seen x 0 log (h.setStream i {}) := by
  have hcases : ∀ j, ((h.setStream i {}).streams j).id ≠ 0 →
      (h.setStream i {}).streams j = h.streams j ∧ j ≠ i := by
    intro j hj
    by_cases hji : j = i
    · subst hji
      rw [setStream_self] at hj
      exact absurd rfl hj
    · exact ⟨setStream_of_ne h hji _, hji⟩
  have hzero : ¬ seen 0 := fun h0 => hs.zero (hs.known 0 h0)
  have hplain : ∀ {P : Stream → Prop}, P {} → (∀ j, P (h.streams j)) →
      ∀ j, P ((h.setStream i {}).streams j) := fun hp hall => forall_setStream hp hall
  refine ⟨fun j k hj hjk => ?_, hs.zero, hs.known, fun j hj => ?_, hs.told, fun id hid => ?_,
    fun j hj _ => ?_, ?_, ?_, fun j hj => ?_, hs.answered, fun r hr => ?_, hs.verdict, hs.once, hs.early,
    hs.limit, fun hp => ?_, hs.free, hs.order, fun hq hok j hj => ?_, fun hq hok j hj => ?_,
    fun hq hok j hj => ?_, fun hq hok j hj => ?_, hs.started, hs.ended⟩
  · have hk := hjk ▸ hj
    rw [(hcases j hj).1, (hcases k hk).1] at hjk
    rw [(hcases j hj).1] at hj
    exact hs.distinct j k hj hjk
  · have heq := (hcases j hj).1
    rw [heq] at hj ⊢
    exact hs.slot j hj
  · by_cases hid' : id = y
    · exact .inl (hid' ▸ hclosed)
    · refine (hs.kept id hid).imp_right fun ⟨j, hj⟩ => ⟨j, ?_⟩
      have hji : j ≠ i := by
        rintro rfl
        exact hid' (hj.symm.trans hy)
      rwa [setStream_of_ne h hji]
  · obtain ⟨heq, hji⟩ := hcases j hj
    rw [heq] at hj ⊢
    refine hs.closed j hj fun hjy => hji ?_
    exact (hs.distinct j i hj (hjy.trans hy.symm))
  · exact hplain (P := fun s => .reset s.id ∈ log → s.reset = true)
      (fun hmem => absurd (hs.told _ hmem 0 rfl) hzero) hs.reset
  · exact hplain (P := fun s => s.response = true → .response s.id ∈ log) nofun hs.response
  · have heq := (hcases j hj).1
    rw [heq] at hj ⊢
    exact hs.fresh j hj
  · rcases hs.holds r hr with hc | ⟨j, hj, hrest⟩
    · exact .inl hc
    · by_cases hji : j = i
      · subst hji
        exact .inl (by rwa [← hj, hy])
      · refine .inr ⟨j, ?_⟩
        rw [setStream_of_ne h hji]
        exact ⟨hj, hrest⟩
  · exact (Table.tally_update_le fun hno => by simp at hno).trans (hs.room hp)
  all_goals
    have heq := (hcases j hj).1
    rw [heq] at hj ⊢
  · exact hs.accepted hq hok j hj
  · exact hs.current hq hok j hj
  · exact hs.waiting hq hok j hj
  · exact hs.whole hq hok j hj

/-- A free slot is taken by a new stream. -/
theorem Story.open {id : Int} (hs : Story p k q env past seen id 0 log h) (hid : id ≠ 0)
    (hmem : id ∈ env.opened) (hnew : ¬ seen id) {i : Fin slots} (hfree : (h.streams i).id = 0)
    (hblock : env.block = some id) (hheader : h.headerStream = id) (hpayload : payload id past = [])
    (now : Nat) :
    Story p k q env past (fun id' => seen id' ∨ id' = id) 0 0 log
      (h.setStream i { id, progressMs := now }) := by
  have hsilent : ∀ n ∈ log, n.stream ≠ some id := fun n hn heq => hnew (hs.told n hn id heq)
  have hcases : ∀ j, j = i ∨ j ≠ i ∧
      (h.setStream i { id, progressMs := now }).streams j = h.streams j := by
    intro j
    by_cases hji : j = i
    · exact .inl hji
    · exact .inr ⟨hji, setStream_of_ne h hji _⟩
  have hself : (h.setStream i { id, progressMs := now }).streams i = { id, progressMs := now } :=
    setStream_self h i _
  have hother : ∀ j, (h.streams j).id ≠ id := by
    intro j hj
    exact hnew (hj ▸ hs.slot j (by rw [hj]; exact hid))
  have hreceived : received id log = [] := by
    refine List.flatMap_eq_nil_iff.2 fun n hn => ?_
    have hne := hsilent n hn
    unfold Note.bytes
    split
    · exact if_neg fun heq => hne (by rw [← heq]; rfl)
    · rfl
  have hheld : (h.setStream i { id, progressMs := now }).held log ≤ h.held log :=
    Table.tally_update_le fun hno => by simp at hno
  refine ⟨fun j k hj hjk => ?_, hs.zero, ?_, fun j hj => ?_,
    fun n hn id' hid' => .inl (hs.told n hn id' hid'), fun id' hid' => ?_, fun j hj _ => ?_,
    fun j hj => ?_, fun j hj => ?_, fun j hj => ?_, hs.answered, fun r hr => ?_, hs.verdict, hs.once,
    hs.early, hs.limit, fun hp => hheld.trans (hs.room hp), hs.free, hs.order, fun hq hok j hj _ => ?_,
    fun hq hok j hj _ => ?_, fun hq hok j hj _ => ?_, fun hq hok j hj _ => ?_, hs.started, hs.ended⟩
  · rcases hcases j with rfl | ⟨hji, hj'⟩ <;> rcases hcases k with rfl | ⟨hki, hk'⟩
    · rfl
    · rw [hself, hk'] at hjk
      exact absurd hjk.symm (hother k)
    · rw [hself, hj'] at hjk
      exact absurd hjk (hother j)
    · rw [hj', hk'] at hjk
      rw [hj'] at hj
      exact hs.distinct j k hj hjk
  · rintro id' (hid' | rfl)
    · exact hs.known id' hid'
    · exact hmem
  · rcases hcases j with rfl | ⟨-, heq⟩
    · rw [hself]
      exact .inr rfl
    · rw [heq] at hj ⊢
      exact .inl (hs.slot j hj)
  · rcases hid' with hid' | rfl
    · refine (hs.kept id' hid').imp_right fun ⟨j, hj⟩ => ⟨j, ?_⟩
      rcases hcases j with rfl | ⟨-, heq⟩
      · rw [hfree] at hj
        exact absurd (hj ▸ hid') fun h0 => hs.zero (hs.known 0 h0)
      · rwa [heq]
    · exact .inr ⟨i, by rw [hself]⟩
  · rcases hcases j with rfl | ⟨-, heq⟩
    · rw [hself]
      rintro ⟨error, hc⟩
      exact hsilent _ hc rfl
    · rw [heq] at hj ⊢
      exact hs.closed j hj hj
  · rcases hcases j with rfl | ⟨-, heq⟩
    · rw [hself] at hj
      exact absurd rfl (hsilent _ hj)
    · rw [heq] at hj ⊢
      exact hs.reset j hj
  · rcases hcases j with rfl | ⟨-, heq⟩
    · rw [hself] at hj
      cases hj
    · rw [heq] at hj ⊢
      exact hs.response j hj
  · rcases hcases j with rfl | ⟨-, heq⟩
    · rw [hself]
      intro _ r hr hrid
      exact hsilent _ hr (congrArg some hrid)
    · rw [heq] at hj ⊢
      exact hs.fresh j hj
  · refine (hs.holds r hr).imp_right fun ⟨j, hj, hjd⟩ => ⟨j, ?_⟩
    rcases hcases j with rfl | ⟨-, heq⟩
    · rw [hfree] at hj
      exact absurd (hs.told _ hr 0 (congrArg some hj.symm)) fun h0 => hs.zero (hs.known 0 h0)
    · rw [heq]
      exact ⟨hj, hjd⟩
  · rcases hcases j with rfl | ⟨-, heq⟩
    · rw [hself]
      exact nofun
    · rw [heq] at hj ⊢
      exact hs.accepted hq hok j hj (hother j)
  · rcases hcases j with rfl | ⟨-, heq⟩
    · rw [hself]
      exact fun _ _ => hheader
    · rw [heq] at hj ⊢
      exact hs.current hq hok j hj (hother j)
  · rcases hcases j with rfl | ⟨-, heq⟩
    · rw [hself]
      exact fun _ _ => .inl hblock
    · rw [heq] at hj ⊢
      exact hs.waiting hq hok j hj (hother j)
  · rcases hcases j with rfl | ⟨-, heq⟩
    · rw [hself]
      exact fun _ => hreceived.trans hpayload.symm
    · rw [heq] at hj ⊢
      exact hs.whole hq hok j hj (hother j)

end

end EspCfTunnel.H2
