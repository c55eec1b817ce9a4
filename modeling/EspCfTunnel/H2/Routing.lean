import EspCfTunnel.H2.Reserved
import Mathlib.Data.List.Perm.Basic

/-!
# Routing

What the application is asked about a request, and whether it is asked, is determined by the fields of
its header block. A request that is asked about carries all fields that were delivered, in order; among
them no guarded name comes twice, so that `cf_h2_header` finds the same values in any order of the
fields (`header_perm`).

Everything that happens in between is oblivious of the header block (`Event.oblivious`). So the session
at the end of two blocks whose fields are in different order is the same up to the order
(`run_fields`), and so is the decision.
-/

namespace EspCfTunnel.H2

open EspCfTunnel StateLogic

/-! ## The header block is not seen -/

/-- The session with another header block. -/
def Session.put (h : Session) (fields : List Header) (used : Nat) (stream : Int) : Session :=
  { h with headers := fields, headerUsed := used, headerStream := stream }

def Ctx.put (fields : List Header) (used : Nat) (stream : Int) (c : Ctx) : Ctx :=
  { c with h := c.h.put fields used stream }

def World.put (fields : List Header) (used : Nat) (stream : Int) (w : World) : World :=
  { w with h := w.h.put fields used stream }

section
variable {fields : List Header} {used : Nat} {stream : Int}

theorem note_oblivious (n : Note) : Oblivious (Ctx.put fields used stream) (note n) :=
  .modify fun _ => rfl

theorem submitRst_oblivious : Oblivious (Ctx.put fields used stream) submitRst := fun _ => rfl

theorem nghttp2_oblivious : Oblivious (Ctx.put fields used stream) nghttp2 := fun _ => rfl

theorem modifySession_oblivious {f : Session → Session}
    (hf : ∀ h, f (h.put fields used stream) = (f h).put fields used stream) :
    Oblivious (Ctx.put fields used stream) (modifySession f) := by
  refine .modify fun c => ?_
  change { c with h := f (c.h.put fields used stream) } = ({ c with h := f c.h } : Ctx).put fields used stream
  rw [hf]
  rfl

theorem reset_oblivious (id : Int) (error : Nat) :
    Oblivious (Ctx.put fields used stream) (reset id error) := by
  refine .bind (note_oblivious _) fun _ => .get_bind (fun _ => rfl) fun c => ?_
  refine .ite (.ret _) (.bind submitRst_oblivious fun ok => .ite ?_ (.bind ?_ fun _ => ?_))
  · exact .bind (modifySession_oblivious fun _ => rfl) fun _ => .ret _
  · cases c.h.findStream id with
    | none => exact .ret _
    | some i =>
      refine .get_bind (fun _ => rfl) fun c => .bind (note_oblivious _) fun _ => ?_
      exact modifySession_oblivious fun _ => rfl
  · exact .bind (modifySession_oblivious fun _ => rfl) fun _ => .ret _

theorem respond_oblivious (id : Int) (status : Nat) (headers : List Header) (origin : Bool) :
    Oblivious (Ctx.put fields used stream) (respond id status headers origin) := by
  refine .bind (note_oblivious _) fun _ => .ite (.ret _) (.get_bind (fun _ => rfl) fun c => ?_)
  dsimp only
  cases c.h.findStream id with
  | none => exact .ret _
  | some i =>
    refine .ite (.ret _) ?_
    cases Headers.headersEncode headers Headers.wireMax with
    | error rc => exact .ret _
    | ok wire =>
      refine .ite (.ret _) (.bind nghttp2_oblivious fun ok => .ite (.ret _) ?_)
      refine .bind (.modify fun _ => rfl) fun _ => .bind (note_oblivious _) fun _ => ?_
      exact .bind (modifySession_oblivious fun _ => rfl) fun _ => .ret _

theorem resume_oblivious (id : Int) : Oblivious (Ctx.put fields used stream) (resume id) := by
  refine .bind (note_oblivious _) fun _ => .get_bind (fun _ => rfl) fun c => ?_
  dsimp only
  cases c.h.findStream id with
  | none => exact .ret _
  | some i =>
    refine .ite (.ret _) (.ite (.ret _) (.bind nghttp2_oblivious fun ok => .ite (.ret _) ?_))
    exact .bind (modifySession_oblivious fun _ => rfl) fun _ => .ret _

theorem tickSlots_oblivious (now : Nat) (l : List (Fin slots)) :
    Oblivious (Ctx.put fields used stream) (tickSlots now l) := by
  induction l with
  | nil => exact .ret _
  | cons i l ih =>
    refine .bind (.get_bind (fun _ => rfl) fun c => .ite ?_ (.ret _)) fun _ => ih
    exact .bind (reset_oblivious _ 8) fun _ => .ret _

/-- API calls do not see the header block. -/
theorem Call.oblivious (call : Call) : Oblivious (Ctx.put fields used stream) call.run := by
  cases call with
  | reset id error => exact .bind (reset_oblivious id error) fun _ => .ret _
  | respond id status headers origin =>
    exact .bind (respond_oblivious id status headers origin) fun _ => .ret _
  | resume id => exact .bind (resume_oblivious id) fun _ => .ret _
  | shutdown =>
    refine .bind (.bind (note_oblivious _) fun _ => ?_) fun _ => .ret _
    refine .bind (modifySession_oblivious fun _ => rfl) fun _ => .bind nghttp2_oblivious fun ok => ?_
    exact .ite (.ret _) (.ret _)
  | sent n =>
    refine .bind (.bind (note_oblivious _) fun _ => .get_bind (fun _ => rfl) fun c => ?_) fun _ => .ret _
    exact .ite (.ret _) (.bind (modifySession_oblivious fun _ => rfl) fun _ => .ret _)
  | tick now =>
    refine .bind (note_oblivious _) fun _ => .bind (modifySession_oblivious fun _ => rfl) fun _ => ?_
    exact tickSlots_oblivious now _

theorem runCalls_oblivious (calls : List Call) :
    Oblivious (Ctx.put fields used stream) (runCalls calls) := by
  induction calls with
  | nil => exact .ret _
  | cons call calls ih => exact .bind call.oblivious fun _ => ih

theorem callback_oblivious (n : Note) : Oblivious (Ctx.put fields used stream) (callback n) := by
  intro c
  have hrest : ∀ reply : Reply, Oblivious (Ctx.put fields used stream) (do
      runCalls reply.calls
      note (.returned n reply.result)
      return reply : M Reply) :=
    fun reply => .bind (runCalls_oblivious _) fun _ => .bind (note_oblivious _) fun _ => .ret _
  -- What is foretold for the callback is taken before its calls run.
  exact hrest (c.oracle.replies.headD {}) { c with
    log := c.log ++ [n], oracle := { c.oracle with replies := c.oracle.replies.tail } }

theorem closedStream_oblivious (id : Int) (error : Nat) :
    Oblivious (Ctx.put fields used stream) (closedStream id error) := by
  refine .get_bind (fun _ => rfl) fun c => ?_
  cases c.h.findStream id with
  | none => exact .ret _
  | some i =>
    refine .bind (callback_oblivious _) fun _ => ?_
    exact .bind (modifySession_oblivious fun _ => rfl) fun _ => .ret _

theorem readResponse_oblivious (id : Int) (capacity : Nat) :
    Oblivious (Ctx.put fields used stream) (readResponse id capacity) := by
  refine .get_bind (fun _ => rfl) fun c => ?_
  dsimp only
  cases c.h.findStream id with
  | none => exact .ret _
  | some i =>
    refine .ite (.ret _) (.bind (modifySession_oblivious fun _ => rfl) fun _ => ?_)
    refine .bind (callback_oblivious _) fun reply => .ite ?_ (.ite (.ret _) (.ite ?_ (.ret _)))
    · exact .bind (modifySession_oblivious fun _ => rfl) fun _ => .ret _
    · exact .bind (modifySession_oblivious fun _ => rfl) fun _ => .ret _

/-- What may come between the beginning of a header block and its end, the fields apart. -/
def Event.aside : Event → Bool
  | .beginHeaders _ _ | .header _ _ _ | .abandon _ | .frame _ | .data _ _ => false
  | _ => true

/-- What comes in between does not see the header block. -/
theorem Event.oblivious {e : Event} (he : e.aside = true) :
    Oblivious (Ctx.put fields used stream) e.run := by
  cases e with
  | clock now | fault code error | output bytes =>
    unfold Event.run
    exact modifySession_oblivious fun _ => rfl
  | beginHeaders | header | abandon | frame | data => cases he
  | closed id error => exact .bind (closedStream_oblivious id error) fun _ => .ret _
  | sentFrame type reason =>
    refine .bind ?_ fun _ => .ret _
    cases type with
    | goaway error last => exact .bind (modifySession_oblivious fun _ => rfl) fun _ => .ret _
    | _ => exact .ret _
  | protocolError code =>
    exact .bind (.bind (modifySession_oblivious fun _ => rfl) fun _ => .ret _) fun _ => .ret _
  | invalidFrame type code =>
    exact .bind (.bind (modifySession_oblivious fun _ => rfl) fun _ => .ret _) fun _ => .ret _
  | read id capacity => exact .bind (readResponse_oblivious id capacity) fun _ => .ret _
  | call call => exact call.oblivious

theorem handle_put {w : World} {e : Event} (he : e.aside = true) (o : Oracle) :
    (w.put fields used stream).handle e o = (w.handle e o).put fields used stream := by
  have hrun : Oblivious (Ctx.put fields used stream) e.run := Event.oblivious he
  exact congrArg Prod.snd (hrun ⟨w.h, o, w.env.responses, []⟩)

theorem step_put {w : World} {e : Event} (he : e.aside = true) (o : Oracle) :
    (w.put fields used stream).step e o = (w.step e o).put fields used stream := by
  rw [World.step, handle_put he]
  rfl

end

/-! ## Collecting the fields -/

/-- What comes between the beginning and the end of the block of a stream. -/
def Within (id : Int) (e : Event) : Prop := e.aside = true ∨ ∃ name value, e = .header id name value

/-- The events that bring no field. -/
def Trace.others (t : Trace) : Trace := t.filter fun x => x.1.field.isNone

/-- Unless the stream has been given up, its fields have all been taken. -/
def Taken (id : Int) (fields : List Header) (h : Session) : Prop :=
  h.headerStream = id → h.headers = fields ∧ h.headerUsed = size fields ∧ Fits fields

section
variable {w : World} {id : Int} {fields : List Header} {e : Event} {o : Oracle} {t : Trace}

theorem within_of_legal (hblock : w.env.block = some id) (hlegal : w.env.Legal e)
    (hends : e.ends = false) : Within id e := by
  have hopen : w.env.block ≠ none := by
    rw [hblock]
    exact Option.some_ne_none id
  cases e with
  | beginHeaders id' request => exact absurd hlegal.1 hopen
  | header id' name value =>
    obtain rfl : id = id' := Option.some.inj (hblock.symm.trans hlegal)
    exact .inr ⟨name, value, rfl⟩
  | abandon id' => cases hends
  | frame f =>
    have hl : if f.type = .headers then _ else _ := hlegal
    rw [if_neg (by simpa [Event.ends] using hends)] at hl
    exact absurd hl.1 hopen
  | data id' bytes => exact absurd hlegal.1 hopen
  | _ => exact .inl rfl

theorem World.Legal.within (hlegal : w.Legal t) (hblock : w.env.block = some id)
    (hends : ∀ x ∈ t, x.1.ends = false) : ∀ x ∈ t, Within id x.1 := by
  induction t generalizing w with
  | nil => exact fun _ hx => absurd hx List.not_mem_nil
  | cons x t ih =>
    obtain ⟨hl, -, hrest⟩ := hlegal
    have hend := hends x List.mem_cons_self
    rw [List.forall_mem_cons]
    exact ⟨within_of_legal hblock hl hend, ih hrest (block_step x.2 hblock hl hend)
      fun y hy => hends y (List.mem_cons_of_mem _ hy)⟩

/-- What brings no field leaves the header block as it is. -/
theorem step_aside (he : e.aside = true) (o : Oracle) :
    w.step e o = (w.step e o).put w.h.headers w.h.headerUsed w.h.headerStream := by
  have hput : (w.put w.h.headers w.h.headerUsed w.h.headerStream).step e o = _ := step_put he o
  exact hput

theorem field_of_aside (he : e.aside = true) : e.field = none := by
  cases e with
  | header id' name value => cases he
  | _ => rfl

/-- A field that fits is added. -/
theorem step_header {name value : Bytes} (hstream : w.h.headerStream = id) (hheaders : w.h.headers = fields)
    (hused : w.h.headerUsed = size fields) (hfits : Fits (fields ++ [⟨name, value⟩])) (o : Oracle) :
    w.step (.header id name value) o =
      w.put (fields ++ [⟨name, value⟩]) (size (fields ++ [⟨name, value⟩])) id := by
  have hrejects : w.h.rejects name value = false :=
    (hfits.of_append.rejects_iff hheaders hused name value).2 hfits
  have hsize : size (fields ++ [⟨name, value⟩]) = size fields + name.length + value.length := by
    rw [size, size, List.map_append, List.sum_append]
    simp [Nat.add_assoc]
  have hrun : onHeader id name value ⟨w.h, o, w.env.responses, []⟩ = (.ok, ⟨w.h.put
      (fields ++ [⟨name, value⟩]) (size (fields ++ [⟨name, value⟩])) id, o, w.env.responses, []⟩) := by
    unfold onHeader
    rw [run_bind, run_get]
    dsimp only
    rw [if_neg (not_not.2 hstream), if_neg (by rw [hrejects]; simp), hsize, ← hused, ← hstream, ← hheaders]
    rfl
  have hhandle : w.handle (.header id name value) o = (onHeader id name value ⟨w.h, o, w.env.responses,
    []⟩).2 := rfl
  rw [World.step, hhandle, hrun]
  rfl

theorem Taken.step (hid : id ≠ 0) (htaken : Taken id fields w.h) (he : Within id e) :
    Taken id (fields ++ e.field.toList) (w.step e o).h := by
  rcases he with haside | ⟨name, value, rfl⟩
  · rw [field_of_aside haside, Option.toList_none, List.append_nil, step_aside haside]
    exact htaken
  · change Taken id (fields ++ [⟨name, value⟩]) (w.step (.header id name value) o).h
    by_cases hstream : w.h.headerStream = id
    · obtain ⟨hheaders, hused, hfits⟩ := htaken hstream
      by_cases hnew : Fits (fields ++ [⟨name, value⟩])
      · rw [step_header hstream hheaders hused hnew]
        exact fun _ => ⟨rfl, rfl, hnew⟩
      · have hrejects : w.h.rejects name value = true := by
          rw [← Bool.not_eq_false]
          exact fun hno => hnew ((hfits.rejects_iff hheaders hused name value).1 hno)
        have hcalm : Calm { w.h with headerStream := 0 } (w.step (.header id name value) o).h := by
          have hrun : (onHeader id name value ⟨w.h, o, w.env.responses, []⟩).2 =
              (reset id 11 ⟨{ w.h with headerStream := 0 }, o, w.env.responses, []⟩).2 := by
            unfold onHeader
            rw [run_bind, run_get]
            dsimp only
            rw [if_neg (not_not.2 hstream), if_pos hrejects]
            rfl
          change Calm _ (onHeader id name value ⟨w.h, o, w.env.responses, []⟩).2.h
          rw [hrun]
          exact reset_calm id 11 _ (Calm.refl _)
        intro hagain
        rw [hcalm.headers.2.2] at hagain
        exact absurd hagain.symm hid
    · have hsame : (w.step (.header id name value) o).h = w.h := by
        change (onHeader id name value ⟨w.h, o, w.env.responses, []⟩).2.h = w.h
        unfold onHeader
        rw [run_bind, run_get]
        dsimp only
        rw [if_pos hstream]
        rfl
      rw [hsame]
      exact fun hagain => absurd hagain hstream

theorem Taken.run (hid : id ≠ 0) (htaken : Taken id fields w.h) (ht : ∀ x ∈ t, Within id x.1) :
    Taken id (fields ++ t.fields) (w.run t).h := by
  induction t generalizing w fields with
  | nil =>
    rw [show fields ++ Trace.fields [] = fields from List.append_nil fields]
    exact htaken
  | cons x t ih =>
    rw [List.forall_mem_cons] at ht
    rw [fields_cons, ← List.append_assoc]
    exact ih (htaken.step hid ht.1) ht.2

/-- A run of events that bring no field does not see the header block. -/
theorem run_put {used : Nat} {stream : Int} (ht : ∀ x ∈ t, x.1.aside = true) :
    (w.put fields used stream).run t = (w.run t).put fields used stream := by
  induction t generalizing w with
  | nil => rfl
  | cons x t ih =>
    rw [List.forall_mem_cons] at ht
    change ((w.put fields used stream).step x.1 x.2).run t = ((w.step x.1 x.2).run t).put fields used stream
    rw [step_put ht.1, ih ht.2]

theorem aside_of_others (ht : ∀ x ∈ t, Within id x.1) : ∀ x ∈ t.others, x.1.aside = true := by
  intro x hx
  obtain ⟨hmem, hnone⟩ := List.mem_filter.1 hx
  rcases ht x hmem with haside | ⟨name, value, heq⟩
  · exact haside
  · rw [heq] at hnone
    cases hnone

/-- **Fields that fit** are collected in order, and nothing else depends on when they come. -/
theorem run_fields (hstream : w.h.headerStream = id) (hheaders : w.h.headers = fields)
    (hused : w.h.headerUsed = size fields) (ht : ∀ x ∈ t, Within id x.1)
    (hfits : Fits (fields ++ t.fields)) :
    w.run t = (w.run t.others).put (fields ++ t.fields) (size (fields ++ t.fields)) id := by
  induction t generalizing w fields with
  | nil =>
    rw [show fields ++ Trace.fields [] = fields from List.append_nil fields, ← hstream, ← hheaders]
    rw [← hheaders] at hused
    rw [← hused]
    rfl
  | cons x t ih =>
    obtain ⟨e, o⟩ := x
    rw [List.forall_mem_cons] at ht
    rw [fields_cons, ← List.append_assoc] at hfits ⊢
    change (w.step e o).run t = _
    rcases ht.1 with haside | ⟨name, value, rfl⟩
    · have hothers : Trace.others ((e, o) :: t) = (e, o) :: Trace.others t :=
        List.filter_cons_of_pos (by simp [field_of_aside haside])
      rw [field_of_aside haside, Option.toList_none, List.append_nil] at hfits ⊢
      rw [hothers]
      have haside' := step_aside (w := w) haside o
      refine ih ?_ ?_ ?_ ht.2 hfits
      · rw [haside']
        exact hstream
      · rw [haside']
        exact hheaders
      · rw [haside']
        exact hused
    · have hothers : Trace.others ((.header id name value, o) :: t) = Trace.others t :=
        List.filter_cons_of_neg Bool.false_ne_true
      have hnew : Fits (fields ++ [⟨name, value⟩]) := hfits.of_append
      rw [hothers, step_header hstream hheaders hused hnew, ih rfl rfl rfl ht.2 hfits,
        run_put (aside_of_others ht.2)]
      rfl

end

/-! ## The order of the fields -/

section
variable {fields fields' : List Header}

theorem ambiguous_symm {x y : Header} (h : ¬ (guarded y.name = true ∧ x.name = y.name)) :
    ¬ (guarded x.name = true ∧ y.name = x.name) := by
  rintro ⟨hguarded, heq⟩
  rw [← heq] at hguarded
  exact h ⟨hguarded, heq.symm⟩

/-- Whether the fields fit does not depend on their order. -/
theorem fits_perm (h : fields.Perm fields') : Fits fields ↔ Fits fields' := by
  rw [Fits, Fits, h.length_eq, size, size, (h.map _).sum_nat, h.pairwise_iff ambiguous_symm]

/-- The field with a guarded name is the one that `cf_h2_header` finds. -/
theorem Fits.find_iff (hfits : Fits fields) {name : Bytes} (hguarded : guarded name = true) {x : Header} :
    fields.find? (·.name = name) = some x ↔ x ∈ fields ∧ x.name = name := by
  constructor
  · intro hfind
    exact ⟨List.mem_of_find?_eq_some hfind, by simpa using List.find?_some hfind⟩
  · rintro ⟨hmem, rfl⟩
    obtain ⟨y, hy⟩ := Option.isSome_iff_exists.1
      (List.find?_isSome.2 ⟨x, hmem, by simp⟩ : (fields.find? (·.name = x.name)).isSome = true)
    have hname : y.name = x.name := by simpa using List.find?_some hy
    have : Std.Symm fun x y : Header => ¬ (guarded y.name = true ∧ x.name = y.name) :=
      ⟨fun _ _ => ambiguous_symm⟩
    by_cases hne : y = x
    · rw [hy, hne]
    · exact absurd ⟨hguarded, hname⟩ (hfits.2.2.forall (List.mem_of_find?_eq_some hy) hmem hne)

/-- **The value of a guarded field** does not depend on the order. -/
theorem header_perm (h : fields.Perm fields') (hfits : Fits fields) {name : Bytes}
    (hguarded : guarded name = true) : header fields name = header fields' name := by
  have hfind : fields.find? (·.name = name) = fields'.find? (·.name = name) := by
    ext x
    rw [hfits.find_iff hguarded, ((fits_perm h).1 hfits).find_iff hguarded, h.mem_iff]
  rw [header, hfind, header]

theorem classify_perm (h : fields.Perm fields') (hfits : Fits fields) :
    classify fields = classify fields' := by
  unfold classify
  rw [header_perm h hfits (by decide +kernel)]

end

/-! ## Requests -/

/-- All of the header block, with what happens in between. -/
def Block.trace (b : Block) : Trace := b.opening ++ [(b.frame, b.last)]

/-- nghttp2 delivers the header block, and does not give it up. -/
structure Block.Delivered (b : Block) (w : World) : Prop where
  legal : w.Legal b.trace
  whole : ∀ x ∈ b.between, x.1.ends = false

/-- The application is asked about the request while the block arrives. -/
def Block.Asked (b : Block) (w : World) (r : Request) : Prop := .request r ∈ w.notes b.trace

/-- The same block with its fields in another order; all else happens as before. -/
structure Block.Rearranged (b b' : Block) : Prop where
  id : b'.id = b.id
  first : b'.first = b.first
  last : b'.last = b.last
  endStream : b'.endStream = b.endStream
  fields : b.between.fields.Perm b'.between.fields
  others : b'.between.others = b.between.others

section
variable {w : World} {b b' : Block}

theorem modifySession_noted {P : List Note → Prop} (f : Session → Session) :
    Triple (fun c => P c.log) (modifySession f) fun _ c => P c.log :=
  fun _ hc => hc

theorem beginHeaders_noted {P : List Note → Prop} (hP : Steady P) (id : Int) (request : Bool) :
    Triple (fun c => P c.log) (beginHeaders id request) fun _ c => P c.log := by
  refine Triple.bind (modifySession_noted _) fun _ => ?_
  refine Triple.ite (fun _ => resetStatus_noted hP id 1) fun _ => Triple.get_bind fun c _ => ?_
  cases c.h.findStream 0 with
  | none => exact (resetStatus_noted hP id 7).pre fun _ h => h.2
  | some i => exact fun _ h => h.2

theorem onHeader_noted {P : List Note → Prop} (hP : Steady P) (id : Int) (name value : Bytes) :
    Triple (fun c => P c.log) (onHeader id name value) fun _ c => P c.log := by
  refine Triple.get_bind fun c _ => Triple.pre ?_ fun _ h => h.2
  refine Triple.ite (fun _ => Triple.ret fun _ h => h) fun _ => ?_
  refine Triple.ite (fun _ => ?_) fun _ _ hc => hc
  exact Triple.bind (modifySession_noted _) fun _ => resetStatus_noted hP id 11

theorem closedStream_noted {P : List Note → Prop} (hP : Steady P) (id : Int) (error : Nat) :
    Triple (fun c => P c.log) (closedStream id error) fun _ c => P c.log := by
  refine Triple.get_bind fun c _ => Triple.pre ?_ fun _ h => h.2
  cases c.h.findStream id with
  | none => exact Triple.ret fun _ h => h
  | some i =>
    refine Triple.bind (callback_noted hP nofun) fun _ => ?_
    exact Triple.bind (modifySession_noted _) fun _ => Triple.ret fun _ h => h

theorem readResponse_noted {P : List Note → Prop} (hP : Steady P) (id : Int) (capacity : Nat) :
    Triple (fun c => P c.log) (readResponse id capacity) fun _ c => P c.log := by
  refine Triple.get_bind fun c _ => Triple.pre ?_ fun _ h => h.2
  dsimp only
  cases c.h.findStream id with
  | none => exact Triple.ret fun _ h => h
  | some i =>
    refine Triple.ite (fun _ => Triple.ret fun _ h => h) fun _ => ?_
    refine Triple.bind (modifySession_noted _) fun _ => ?_
    refine Triple.bind (callback_noted hP nofun) fun reply => ?_
    refine Triple.ite (fun _ => ?_) fun _ => Triple.ite (fun _ => Triple.ret fun _ h => h) fun _ => ?_
    · exact Triple.bind (modifySession_noted _) fun _ => Triple.ret fun _ h => h
    · exact Triple.when (fun _ => modifySession_noted _) (fun _ _ h => h) (Triple.ret fun _ h => h)

/-- Only the end of a header block notes a request. -/
theorem Event.noted {P : List Note → Prop} (hP : Steady P) {id : Int} {e : Event} (he : Within id e) :
    Triple (fun c => P c.log) e.run fun _ c => P c.log := by
  rcases he with haside | ⟨name, value, rfl⟩
  · cases e with
    | clock | fault | output | protocolError | invalidFrame => exact fun _ hc => hc
    | beginHeaders | header | abandon | frame | data => cases haside
    | closed id' error => exact Triple.bind (closedStream_noted hP id' error) fun _ _ hc => hc
    | sentFrame type reason => cases type <;> exact fun _ hc => hc
    | read id' capacity => exact Triple.bind (readResponse_noted hP id' capacity) fun _ _ hc => hc
    | call call => exact Call.noted hP call
  · exact Triple.bind (onHeader_noted hP id name value) fun _ _ hc => hc

theorem notes_append {t t' : Trace} : w.notes (t ++ t') = w.notes t ++ (w.run t).notes t' := by
  induction t generalizing w with
  | nil => rfl
  | cons x t ih =>
    change _ ++ (w.step x.1 x.2).notes (t ++ t') = (_ ++ (w.step x.1 x.2).notes t) ++
      ((w.step x.1 x.2).run t).notes t'
    rw [ih, List.append_assoc]

theorem notes_within {id : Int} {t : Trace} (ht : ∀ x ∈ t, Within id x.1) (r : Request) :
    .request r ∉ w.notes t := by
  induction t generalizing w with
  | nil => exact List.not_mem_nil
  | cons x t ih =>
    rw [List.forall_mem_cons] at ht
    have hfirst : .request r ∈ (w.handle x.1 x.2).log ↔ .request r ∈ ([] : List Note) :=
      request_mem_iff (fun P hP => Event.noted hP ht.1) r ⟨w.h, x.2, w.env.responses, []⟩
    change .request r ∉ (w.handle x.1 x.2).log ++ (w.step x.1 x.2).notes t
    rw [List.mem_append, hfirst]
    rintro (hmem | hmem)
    · exact List.not_mem_nil hmem
    · exact ih ht.2 hmem

/-- What comes between the beginning and the end of the block. -/
theorem Block.Delivered.within (hb : b.Delivered w) : ∀ x ∈ b.between, Within b.id x.1 := by
  obtain ⟨⟨-, -, hbetween⟩, -⟩ := legal_append.1 hb.legal
  exact hbetween.within rfl hb.whole

/-- The application is asked at the end of the block, if at all. -/
theorem Block.Delivered.asked_iff (hb : b.Delivered w) (r : Request) :
    b.Asked w r ↔ .request r ∈ ((w.run b.opening).handle b.frame b.last).log := by
  have hstart : .request r ∈ (w.handle b.start b.first).log ↔ .request r ∈ ([] : List Note) :=
    request_mem_iff (fun P hP => Triple.bind (beginHeaders_noted hP b.id true) fun _ _ hc => hc) r
      ⟨w.h, b.first, w.env.responses, []⟩
  have hopening : .request r ∉ w.notes b.opening := by
    change .request r ∉ (w.handle b.start b.first).log ++ (w.step b.start b.first).notes b.between
    rw [List.mem_append, hstart]
    rintro (hmem | hmem)
    · exact List.not_mem_nil hmem
    · exact notes_within hb.within r hmem
  have hlast : (w.run b.opening).notes [(b.frame, b.last)] =
      ((w.run b.opening).handle b.frame b.last).log := List.append_nil _
  rw [Block.Asked, Block.trace, notes_append, List.mem_append, or_iff_right hopening, hlast]

/-- The block begins in a free slot: nothing has been collected. -/
theorem Block.begun (hfree : ∃ i, (w.h.streams i).id = 0) :
    (w.step b.start b.first).h.headerStream = b.id ∧ (w.step b.start b.first).h.headers = [] ∧
      (w.step b.start b.first).h.headerUsed = size [] := by
  cases hslot : w.h.findStream 0 with
  | none =>
    obtain ⟨i, hzero⟩ := hfree
    exact absurd hzero (findStream_eq_none hslot i)
  | some j =>
    have hwait := Waiting.begin (o := b.first) hslot b.id
    exact ⟨hwait.stream, hwait.headers, hwait.used⟩

theorem fits_nil : Fits [] := ⟨Nat.zero_le _, Nat.zero_le _, .nil⟩

/-- **A request that is asked about** has all the fields that were delivered, and these fit. -/
theorem Block.Asked.fields (hb : b.Delivered w) (hfree : ∃ i, (w.h.streams i).id = 0) {r : Request}
    (h : b.Asked w r) : Fits b.between.fields ∧ classify b.between.fields = some r.kind ∧
      r = ⟨b.id, r.kind, b.between.fields, b.endStream⟩ := by
  rw [hb.asked_iff, Block.frame, frame_request] at h
  obtain ⟨-, -, -, hstream, hclass, -, hr⟩ := h
  obtain ⟨⟨hl, -, -⟩, -⟩ := legal_append.1 hb.legal
  have hbegun : Taken b.id [] (w.step b.start b.first).h :=
    fun _ => ⟨(Block.begun hfree).2.1, (Block.begun hfree).2.2, fits_nil⟩
  have htaken := hbegun.run hl.2.1 hb.within
  obtain ⟨hheaders, -, hfits⟩ := htaken hstream
  change (w.run b.opening).h.headers = _ at hheaders
  rw [List.nil_append] at hheaders hfits
  rw [hheaders] at hclass hr
  exact ⟨hfits, hclass, hr⟩

/-- The session at the end of a block whose fields fit. -/
theorem Block.Delivered.run_opening (hb : b.Delivered w) (hfree : ∃ i, (w.h.streams i).id = 0)
    (hfits : Fits b.between.fields) :
    w.run b.opening = ((w.step b.start b.first).run b.between.others).put b.between.fields
      (size b.between.fields) b.id := by
  obtain ⟨hstream, hheaders, hused⟩ := Block.begun (b := b) hfree
  exact run_fields hstream hheaders hused hb.within hfits

/-- Asked about a block is asked about the same block in another order. -/
theorem Block.Asked.rearranged (hb : b.Delivered w) (hb' : b'.Delivered w)
    (hfree : ∃ i, (w.h.streams i).id = 0) (hr : b.Rearranged b') {r : Request} (h : b.Asked w r) :
    b'.Asked w { r with headers := b'.between.fields } := by
  obtain ⟨hfits, -, hwhole⟩ := h.fields hb hfree
  have hfits' := (fits_perm hr.fields).1 hfits
  rw [hb.asked_iff, Block.frame, frame_request, hb.run_opening hfree hfits] at h
  obtain ⟨i, hfind, hreset, hstream, hclass, hroom, -⟩ := h
  have hstart : b'.start = b.start := by rw [Block.start, Block.start, hr.id]
  rw [hb'.asked_iff, Block.frame, frame_request, hb'.run_opening hfree hfits', hr.others, hr.first, hstart,
    hr.id, hr.endStream]
  refine ⟨i, hfind, hreset, rfl, ?_, hroom, ?_⟩
  · exact (classify_perm hr.fields hfits).symm.trans hclass
  · rw [hwhole]
    rfl

/-- Request routing is unambiguous. For a header block that is delivered to a session with a free slot,
the application is asked only if the fields are within the limits and no guarded name comes twice, and
then it gets exactly the fields that were delivered, in order. In any other order of the fields it is
asked exactly if it is asked in this one, about a request of the same kind, and `cf_h2_header` returns
the same value for every guarded name. -/
theorem routing_unambiguous (hb : b.Delivered w) (hfree : ∃ i, (w.h.streams i).id = 0) :
    (∀ r, b.Asked w r → b.between.fields.length ≤ headerMax ∧ size b.between.fields ≤ headerBytes ∧
        (b.between.fields.Pairwise fun x y => ¬ (guarded y.name = true ∧ x.name = y.name)) ∧
        classify b.between.fields = some r.kind ∧
        r = ⟨b.id, r.kind, b.between.fields, b.endStream⟩) ∧
      ∀ b', b.Rearranged b' → b'.Delivered w →
        ((∃ r, b.Asked w r) ↔ ∃ r, b'.Asked w r) ∧
        (∀ r r', b.Asked w r → b'.Asked w r' → r.kind = r'.kind ∧
          ∀ name, guarded name = true → header r.headers name = header r'.headers name) ∧
        (Fits b.between.fields ↔ Fits b'.between.fields) ∧
        (Fits b.between.fields → classify b.between.fields = classify b'.between.fields ∧
          ∀ name, guarded name = true →
            header b.between.fields name = header b'.between.fields name) := by
  refine ⟨fun r h => ?_, fun b' hr hb' => ⟨⟨?_, ?_⟩, ?_, fits_perm hr.fields, ?_⟩⟩
  · obtain ⟨⟨hcount, hsize, hpair⟩, hclass, heq⟩ := h.fields hb hfree
    exact ⟨hcount, hsize, hpair, hclass, heq⟩
  · rintro ⟨r, h⟩
    exact ⟨_, h.rearranged hb hb' hfree hr⟩
  · rintro ⟨r, h⟩
    have hback : b'.Rearranged b :=
      ⟨hr.id.symm, hr.first.symm, hr.last.symm, hr.endStream.symm, hr.fields.symm, hr.others.symm⟩
    exact ⟨_, h.rearranged hb' hb hfree hback⟩
  · intro r r' h h'
    obtain ⟨hfits, hclass, hwhole⟩ := h.fields hb hfree
    obtain ⟨-, hclass', hwhole'⟩ := h'.fields hb' hfree
    rw [← classify_perm hr.fields hfits, hclass] at hclass'
    refine ⟨Option.some.inj hclass', fun name hname => ?_⟩
    rw [hwhole, hwhole']
    exact header_perm hr.fields hfits hname
  · intro hfits
    exact ⟨classify_perm hr.fields hfits, fun name hname => header_perm hr.fields hfits hname⟩

end

/-- The header block of the control stream with the upgrade first. -/
def upgradeFirst (id : Int) : Block where
  id := id
  between := (.header id upgradeName controlStream, {}) :: pseudoFields id

/-- The control stream is asked about in either order of its fields. -/
theorem routing_unambiguous_control :
    (controlBlock 1).Asked ⟨{ appLimit := 4 }, {}⟩ ⟨1, .control, (controlBlock 1).between.fields, false⟩ ∧
      ∃ r, (upgradeFirst 1).Asked ⟨{ appLimit := 4 }, {}⟩ r := by
  have hasked : (controlBlock 1).Asked ⟨{ appLimit := 4 }, {}⟩
      ⟨1, .control, (controlBlock 1).between.fields, false⟩ := by
    unfold Block.Asked
    decide +kernel
  have hperm : (controlBlock 1).between.fields.Perm (upgradeFirst 1).between.fields := by decide +kernel
  have hothers : (upgradeFirst 1).between.others = (controlBlock 1).between.others := rfl
  have hrouting := routing_unambiguous (w := ⟨{ appLimit := 4 }, {}⟩) (b := controlBlock 1)
    ⟨by decide +kernel, by decide +kernel⟩ ⟨0, rfl⟩
  exact ⟨hasked, (hrouting.2 (upgradeFirst 1) ⟨rfl, rfl, rfl, rfl, hperm, hothers⟩
    ⟨by decide +kernel, by decide +kernel⟩).1.1 ⟨_, hasked⟩⟩

end EspCfTunnel.H2
