import EspCfTunnel.Rpc.Layout
import EspCfTunnel.Capnp.RoundTrip

/-!
# The messages that are sent

Every message of `cf_rpc.c` is built by one run of builder calls, so it is the tree of some node
(`finishNode` and the others), laid out in a frame of its own or not at all (`Built`). `decode` reads
a message the way a peer does, and on a frame that holds a node it returns what the node says.
`framesOf` splits an output buffer back into frames with the framer.
-/

namespace EspCfTunnel.Rpc

open EspCfTunnel Framing Capnp StateLogic

/-! ## Messages as nodes -/

/-- A message of the given kind. -/
def messageNode (kind : Nat) (body : Node) : Node := .struct 1 [⟨0, 2, kind⟩] [body]

def finishNode (id : Nat) (release : Bool) : Node :=
  messageNode 4 (.struct 1 [⟨0, 4, id⟩, ⟨4, 1, if release then 0 else 1⟩] [])

def releaseNode (id : Nat) : Node := messageNode 6 (.struct 1 [⟨0, 4, id⟩, ⟨4, 4, 1⟩] [])

def abortNode : Node := messageNode 1 (.struct 1 [] [.blob true reason])

def bootstrapNode : Node := messageNode 8 (.struct 1 [] [.null])

/-- The target and the payload of a call, behind its numbers. -/
def callNode (cap question method : Nat) (content : Node) : Node :=
  messageNode 2 (.struct 3 [⟨0, 4, question⟩, ⟨4, 2, method⟩, ⟨8, 8, registrationInterface⟩]
    [.struct 1 [⟨0, 4, cap⟩] [.null], .struct 0 [] [content, .null], .null])

/-- The features that are advertised. -/
def featureNode (features : Nat) : Node :=
  if features = 0 then .null
  else .pointers ((if remoteConfig features then [.blob true (text "allow_remote_config")] else []) ++
    if serializedHeaders features then [.blob true (text "serialized_headers")] else [])

/-- The parameters of the register call. -/
def registerNode (cred : Credentials) (opt : Options) : Node :=
  .struct 1 [⟨0, 1, opt.connectionIndex⟩]
    [.struct 0 [] [.blob true (cred.accountTag.read 0 32),
      .blob false (cred.tunnelSecret.read 0 cred.tunnelSecretLen)],
     .blob false (cred.tunnelId.read 0 16),
     .struct 1 [⟨0, 1, if opt.replaceExisting then 1 else 0⟩, ⟨2, 1, opt.previousAttempts⟩]
       [.struct 0 [] [.blob false (opt.connectorId.read 0 16), featureNode opt.features,
          .blob true opt.version, .blob true opt.arch],
        .blob false opt.localIp]]

/-! ## The programs build the nodes -/

section
variable {α : Type} {T : List Task}

/-- Slots that stay null may be struck off the tasks anywhere. -/
theorem Does.drop_null {x : StateM Builder α} {slot : Nat} {xs ys : α → List Task}
    (h : Does T x fun a => xs a ++ .fill slot .null :: ys a) : Does T x fun a => xs a ++ ys a :=
  fun root b₀ b hb => Building.step (h root b₀ b hb)

/-- What is left when no call remains to be made. -/
theorem Does.done {x : StateM Builder α} {Q : α → List Task} (h : Does T x Q)
    (hQ : ∀ a, Does (Q a) (pure ()) fun _ => []) : Does T x fun _ => [] :=
  fun root b₀ b hb => hQ _ root b₀ _ (h root b₀ b hb)

theorem message_does (kind dw : Nat) (fs : List Field) (cs : List Node) :
    Does (.fill 0 (messageNode kind (.struct dw fs cs)) :: T) (message kind dw cs.length) fun s =>
      .fields s dw fs :: (fills (s + dw) cs ++ T) := by
  refine Does.bind (Does.struct 1 [⟨0, 2, kind⟩] [.struct dw fs cs]) fun root => ?_
  refine Does.bind (Does.set root 1 ⟨0, 2, kind⟩ []) fun _ => ?_
  exact Does.skip_fields (Does.struct dw fs cs)

theorem finishBody_does (id : Nat) (release : Bool) :
    Does [.fill 0 (finishNode id release)] (finishBody id release) fun _ => [] := by
  refine Does.bind (message_does 4 1 _ []) fun s => Does.bind (Does.set s 1 _ _) fun _ => ?_
  exact Does.done (Does.set s 1 _ _) fun _ => Does.skip_fields (Does.ret _)

theorem releaseBody_does (r : Client) :
    Does [.fill 0 (releaseNode r.capability)] (releaseBody r) fun _ => [] := by
  refine Does.bind (message_does 6 1 _ []) fun s => Does.bind (Does.set s 1 _ _) fun _ => ?_
  exact Does.done (Does.set s 1 _ _) fun _ => Does.skip_fields (Does.ret _)

theorem abortBody_does : Does [.fill 0 abortNode] abortBody fun _ => [] := by
  refine Does.bind (message_does 1 1 [] [.blob true reason]) fun s => Does.skip_fields ?_
  exact Does.blob true reason

theorem bootstrapBody_does :
    Does [.fill 0 bootstrapNode] (do let _ ← message 8 1 1) fun _ => [] := by
  refine Does.bind (message_does 8 1 [] [.null]) fun s => ?_
  exact Does.skip_fields (Does.skip_null (Does.ret _))

/-- A call leaves its content to be filled in. -/
theorem call_does (cap question method : Nat) (content : Node) :
    Does [.fill 0 (callNode cap question method content)] (call cap question method) fun payload =>
      [.fill payload content] := by
  refine Does.bind (message_does 2 3 _ _) fun c => ?_
  refine Does.bind (Does.set c 3 _ _) fun _ => Does.bind (Does.set c 3 _ _) fun _ => ?_
  refine Does.bind (Does.set c 3 _ _) fun _ => Does.skip_fields ?_
  refine Does.bind (Does.struct 1 [⟨0, 4, cap⟩] [.null]) fun target => ?_
  refine Does.bind (Does.set target 1 _ _) fun _ => Does.skip_fields (Does.skip_null ?_)
  have hpayload := @Does.struct [.fill (c + 3 + 1 + 1) .null] (c + 3 + 1) 0 [] [content, .null]
  have hcall := @Does.drop_null _ _ _ _ (fun p => [.fields p 0 [], .fill (p + 0) content,
    .fill (p + 0 + 1) .null]) (fun _ => []) hpayload
  have hnull : Does [.fill (c + 3 + 1) (.struct 0 [] [content, .null]), .fill (c + 3 + 1 + 1) .null]
      (cpStruct (c + 4) 0 2) fun p => [.fields p 0 [], .fill p content] :=
    fun root b₀ b hb => @Building.step root b₀ [.fields _ 0 [], .fill _ content] [] _ _
      (hcall root b₀ b hb)
  exact fun root b₀ b hb => @Building.step root b₀ [] [.fill _ content] _ _ (hnull root b₀ b hb)

theorem unregisterBody_does (cap : Nat) :
    Does [.fill 0 (callNode cap 2 1 (.struct 0 [] []))] (unregisterBody cap) fun _ => [] := by
  refine Does.bind (call_does cap 2 1 _) fun payload => ?_
  refine Does.bind (Does.struct 0 [] []) fun _ => Does.skip_fields (Does.ret _)

/-- The feature list of the register call. -/
theorem featureList_does (client features : Nat) :
    Does (.fill (client + 1) (featureNode features) :: T) (featureList client features) fun _ => T := by
  unfold featureList featureNode
  by_cases h0 : features = 0
  · rw [if_pos h0, if_neg (not_not.2 h0)]
    exact Does.skip_null (Does.ret _)
  rw [if_neg h0, if_pos h0]
  cases hr : remoteConfig features <;> cases hs : serializedHeaders features
  · exact Does.bind (Does.pointers []) fun _ => Does.ret _
  · exact Does.bind (Does.pointers [_]) fun list => Does.blob true _
  · exact Does.bind (Does.pointers [_]) fun list => Does.bind (Does.blob true _) fun _ => Does.ret _
  · exact Does.bind (Does.pointers [_, _]) fun list =>
      Does.bind (Does.blob true _) fun _ => Does.blob true _

theorem registerBody_does (cap : Nat) (cred : Credentials) (opt : Options) :
    Does [.fill 0 (callNode cap 1 0 (registerNode cred opt))] (registerBody cap cred opt)
      fun _ => [] := by
  refine Does.bind (call_does cap 1 0 _) fun payload => ?_
  refine Does.bind (Does.struct 1 _ _) fun params => Does.bind (Does.set params 1 _ _) fun _ => ?_
  refine Does.skip_fields (Does.bind (Does.struct 0 [] _) fun auth => Does.skip_fields ?_)
  refine Does.bind (Does.blob true _) fun _ => Does.bind (Does.blob false _) fun _ => ?_
  refine Does.bind (Does.blob false _) fun _ => ?_
  refine Does.bind (Does.struct 1 _ _) fun options => Does.bind (Does.set options 1 _ _) fun _ => ?_
  refine Does.bind (Does.set options 1 _ _) fun _ => Does.skip_fields ?_
  refine Does.bind (Does.struct 0 [] _) fun client => Does.skip_fields ?_
  refine Does.bind (Does.blob false _) fun _ => Does.bind (featureList_does client _) fun _ => ?_
  refine Does.bind (Does.blob true _) fun _ => Does.bind (Does.blob true _) fun _ => ?_
  exact Does.blob false _

end

/-! ## Frames that hold a node -/

/-- The frame is accepted by the reader, and its root denotes the tree of the node. -/
def Encodes (frame : Bytes) (node : Node) : Prop :=
  ∃ g xs, cpReadInit frame = .ok g ∧ Denotes g.arena 0 0 0 node.tree xs

/-- What building a node in a buffer of `cap` bytes gives: its frame, or an error and no bytes. -/
inductive Built (node : Node) (cap : Nat) : (Result × Nat) × Mem → Prop
  | frame {out : Mem} : 1 + node.words ≤ (cap - 8) / 8 →
      Encodes (out.read 0 (8 + 8 * (1 + node.words))) node →
      Built node cap ((.ok, 8 + 8 * (1 + node.words)), out)
  | nothing {rc : Result} {out : Mem} : (cap - 8) / 8 < 1 + node.words → rc ≠ .ok →
      Built node cap ((rc, 0), out)

theorem build_built {node : Node} (hnode : node.WellTyped) {x : StateM Builder Unit}
    (hx : Does [.fill 0 node] x fun _ => []) (out : Mem) {cap : Nat} (hlo : 16 ≤ cap)
    (hhi : cap ≤ messageMax) : Built node cap (build out cap x) := by
  have hp : Progress node out cap [] _ := (hx node _ _ .start).progress hnode hlo hhi
  unfold build
  generalize (x (cpBuildInit out cap).2).2 = b at hp
  dsimp only
  by_cases hok : b.error = .ok
  · obtain ⟨hwords, g, hinit, -, -, -, xs, hden⟩ := hp.denotes hhi hok
    have hroom := hp.room
    rw [cpBuildEnd_of_ok hok, hwords, Nat.mul_comm]
    refine .frame (by omega) ⟨g, xs, ?_, hden⟩
    rw [← hinit, Builder.frame, hwords, Nat.mul_comm 8]
  · rw [cpBuildEnd_of_error hok]
    exact .nothing (hp.failed hok) hok

/-- A frame has no words but those of its node. -/
theorem Encodes.isFrame {frame : Bytes} {node : Node} (h : Encodes frame node) :
    IsFrame messageMax frame := by
  obtain ⟨g, xs, hinit, -⟩ := h
  exact (cpReadInit_eq_ok hinit).1

mutual

/-- The extents of a node laid out in one segment are its words. -/
theorem words_eq {A : Arena} {seg slot : Nat} (node : Node) {xs : List Extent}
    (h : Denotes A 0 seg slot node.tree xs) : totalWords xs = node.words := by
  cases node with
  | null =>
    rw [Node.tree] at h
    cases h
    rfl
  | struct dw fs cs =>
    rw [Node.tree] at h
    generalize hdata : setFields (List.replicate (dw * 8) 0) fs = data at h
    generalize hps : treeAll cs = ps at h
    cases h with
    | @struct _ _ _ oseg w dw' _ ys _ _ _ _ _ hkids =>
      subst hps
      have hlen : (A.bytes oseg w dw').length = dw' * 8 := Mem.length_read _ _ _
      rw [← hdata, ← dataOf, length_dataOf] at hlen
      have hbelow := wordsAll_eq cs hkids
      rw [Node.words, ← hbelow, ← length_treeAll, ← totalWords_flatMap, totalWords,
        List.map_cons, List.sum_cons, ← totalWords]
      dsimp only
      omega
  | pointers cs =>
    rw [Node.tree] at h
    generalize hps : treeAll cs = ps at h
    cases h with
    | pointers _ _ _ _ _ hkids =>
      subst hps
      have hbelow := wordsAll_eq cs hkids
      rw [Node.words, ← hbelow, ← length_treeAll, ← totalWords_flatMap, totalWords,
        List.map_cons, List.sum_cons, ← totalWords]
  | blob text value =>
    rw [Node.tree] at h
    generalize hes : (stored text value).map (fun b => b.toNat) = es at h
    cases h with
    | @list _ _ _ _ _ _ n =>
      have hlen := congrArg List.length hes
      rw [List.length_map, List.length_map, List.length_range] at hlen
      rw [Node.words, hlen, totalWords, List.map_singleton, List.sum_singleton,
        show elementBits 2 = 8 from rfl]
      dsimp only
      omega

theorem wordsAll_eq {A : Arena} {seg base : Nat} (cs : List Node) {ys : Nat → List Extent}
    (h : ∀ i t, (treeAll cs)[i]? = some t → Denotes A 0 seg (base + i) t (ys i)) :
    wordsBelow ys cs.length = wordsAll cs := by
  cases cs with
  | nil => rfl
  | cons c cs =>
    rw [treeAll] at h
    have hhead := words_eq c (h 0 c.tree rfl)
    have hrest : ∀ i t, (treeAll cs)[i]? = some t → Denotes A 0 seg (base + 1 + i) t (ys (i + 1)) := by
      intro i t ht
      have := h (i + 1) t (by rw [List.getElem?_cons_succ]; exact ht)
      rwa [show base + (i + 1) = base + 1 + i by omega] at this
    have htail := wordsAll_eq cs hrest
    rw [wordsAll, ← hhead, ← htail, wordsBelow, wordsBelow, List.length_cons,
      List.range_succ_eq_map, List.map_cons, List.sum_cons, List.map_map]
    rfl

end

/-! ## What a peer reads -/

/-- A message as its receiver sees it. -/
inductive Message
  | bootstrap (question : Nat)
  | call (question interface method target : Nat)
  | finish (question : Nat) (releaseResultCaps : Bool)
  | release (id referenceCount : Nat)
  | abort (reason : Bytes)
  | other
  deriving DecidableEq, Repr

section
variable {σ V : Type} (S : Source σ V)

/-- Decode the body of a message of the given kind. A call is to an imported capability. -/
def decodeBody (kind : Nat) (body : V) : StateM σ Message := do
  if kind = 8 then return .bootstrap (← S.uint body 0 4)
  if kind = 2 then
    let question ← S.uint body 0 4
    let method ← S.uint body 4 2
    let interface ← S.uint body 8 8
    let target ← S.field body 0
    let which ← S.uint target 4 2
    if which ≠ 0 then return .other
    return .call question interface method (← S.uint target 0 4)
  if kind = 4 then
    let question ← S.uint body 0 4
    let flags ← S.uint body 4 1
    return .finish question (flags % 2 = 0)
  if kind = 6 then
    let id ← S.uint body 0 4
    return .release id (← S.uint body 4 4)
  if kind = 1 then return .abort (← S.data (← S.field body 0) true)
  return .other

/-- Decode a message by the schema of the RPC protocol. -/
def decode : StateM σ Message := do
  let root ← S.root
  let kind ← S.uint root 0 2
  let body ← S.field root 0
  decodeBody S kind body

end

/-- The message in a frame. -/
def decodeFrame (frame : Bytes) : Message :=
  match cpReadInit frame with
  | .error _ => .other
  | .ok g => (decode readerSource g).1

/-- The frames in a stream, as the framer of a peer delivers them. -/
def framesOf (bytes : Bytes) : List Bytes :=
  (capnpFeed collect (framerReset ⟨fun _ => 0, messageMax, 0, 0, 0, 0, .ok⟩) [] bytes).state

/-- Decoding does not depend on the layout. -/
theorem decode_agree {A : Arena} {B : Nat} (hA : ∀ seg, A.words seg < 2 ^ 32) {t : Tree}
    {xs : List Extent} (h : Denotes A 2 0 0 t xs) (hB : totalWords xs + 40 ≤ B) :
    Agree A B (decode readerSource) (decode (treeSource t)) := by
  unfold decode decodeBody
  refine Sim.bind (root_sim hA h (by omega)) fun root c B₁ hroot => ?_
  obtain ⟨zs, own, hc, hcd, hB₁, hw₁⟩ := reached_elim hroot
  refine agree_uint hc (by omega) fun kind => ?_
  refine agree_field hA hc hcd (by decide) 0 (by omega) fun body c' ws own' B₂ hc' hcd' hB₂ hw₂ => ?_
  refine Agree.ite Iff.rfl (fun _ => agree_uint hc' (by omega) fun _ => .ret _) fun _ => ?_
  refine Agree.ite Iff.rfl (fun _ => ?_) fun _ => ?_
  · refine agree_uint hc' (by omega) fun _ => agree_uint hc' (by omega) fun _ => ?_
    refine agree_uint hc' (by omega) fun _ => ?_
    refine agree_field hA hc' hcd' (by decide) 0 (by omega) fun target c'' us _ B₃ hc'' _ hB₃ _ => ?_
    refine agree_uint hc'' (by omega) fun _ => Agree.ite Iff.rfl (fun _ => .ret _) fun _ => ?_
    exact agree_uint hc'' (by omega) fun _ => .ret _
  refine Agree.ite Iff.rfl (fun _ => ?_) fun _ => ?_
  · exact agree_uint hc' (by omega) fun _ => agree_uint hc' (by omega) fun _ => .ret _
  refine Agree.ite Iff.rfl (fun _ => ?_) fun _ => ?_
  · exact agree_uint hc' (by omega) fun _ => agree_uint hc' (by omega) fun _ => .ret _
  refine Agree.ite Iff.rfl (fun _ => ?_) fun _ => .ret _
  refine agree_field hA hc' hcd' (by decide) 0 (by omega) fun text c'' us _ B₃ hc'' _ _ _ => ?_
  exact agree_data hc'' fun _ => .ret _

/-- Decoding the frame of a node is decoding its tree. -/
theorem Encodes.decodeFrame_eq {frame : Bytes} {node : Node} (h : Encodes frame node)
    (hsmall : node.words ≤ 2048) :
    decodeFrame frame = (decode (treeSource node.tree) .ok).1 := by
  obtain ⟨g, xs, hinit, hden⟩ := h
  have hwords := words_eq node hden
  have hA : ∀ seg, g.arena.words seg < 2 ^ 32 := by
    intro seg
    have := segment_len_le hinit seg
    unfold messageMax at this
    simp only [Reader.arena]
    omega
  have hg : g.Tracks g.arena traversalWords .ok := by
    obtain ⟨-, rfl⟩ := cpReadInit_eq_ok hinit
    exact ⟨rfl, rfl, le_rfl, le_rfl⟩
  obtain ⟨-, -, heq⟩ := decode_agree hA (hden.mono (Nat.zero_le 2)) (by unfold traversalWords; omega)
    g .ok hg
  rw [decodeFrame, hinit]
  exact heq

/-- The messages in a stream of frames. -/
def messagesOf (bytes : Bytes) : List Message := (framesOf bytes).map decodeFrame

theorem framesOf_flatten {frames : List Bytes} (h : ∀ fr ∈ frames, IsFrame messageMax fr) :
    framesOf frames.flatten = frames := by
  obtain ⟨f', -, heq⟩ := pushAll_collect (f := ⟨fun _ => 0, messageMax, 0, 0, 0, 0, .ok⟩) frames []
    [] h
  rw [List.append_nil] at heq
  rw [framesOf, capnpFeed_eq_pushAll collect [] _ (framerReset_inv _) rfl, heq]
  simp [pushAll, FeedResult.advance]

/-! ## What the nodes say -/

section
variable {dw : Nat} {fs : List Field} {cs : List Node}

/-- A number is read from the data that setting the fields leaves. -/
theorem uint_tree_read {f : Field} (hf : f.Fits dw) :
    (Node.struct dw fs cs).tree.uint f.byte f.width .ok = (f.read (dataOf dw fs), .ok) := by
  obtain ⟨hwidth, hbyte, -⟩ := hf
  have hbad : ¬ (f.width ≠ 1 ∧ f.width ≠ 2 ∧ f.width ≠ 4 ∧ f.width ≠ 8) := by omega
  unfold Tree.uint
  rw [run_bind, run_get, if_neg (by simp [Node.tree, Tree.kind]),
    if_neg (by simp only [Node.tree, Tree.kind, hbad, ne_eq, not_true_eq_false, or_self,
      not_false_eq_true])]
  rw [Node.tree, Tree.dataBytes, ← dataOf, length_dataOf, if_neg (by omega)]
  rfl

/-- A field that is not overwritten later is read from the tree as it was set, cut to its width. -/
theorem uint_tree (pre post : List Field) {f : Field} (hf : f.Fits dw)
    (hpost : ∀ g ∈ post, f.Apart g) :
    (Node.struct dw (pre ++ f :: post) cs).tree.uint f.byte f.width .ok =
      (f.value % 2 ^ (8 * f.width), .ok) := by
  rw [uint_tree_read hf, Field.read_dataOf hf hpost]

/-- A number that was never set is zero. -/
theorem uint_tree_zero {f : Field} (hf : f.Fits dw) (hfs : ∀ g ∈ fs, f.Apart g) :
    (Node.struct dw fs cs).tree.uint f.byte f.width .ok = (0, .ok) := by
  rw [uint_tree_read hf, dataOf,
    Field.read_setFields (by rw [List.length_replicate]; exact hf.2.1) hfs, Field.read,
    List.drop_replicate, List.take_replicate, Bytes.le_replicate_zero]

theorem field_tree (i : Nat) :
    (Node.struct dw fs cs).tree.field i .ok = ((treeAll cs).getD i .null, .ok) := by
  unfold Tree.field
  rw [run_bind, run_get, if_neg (by simp [Node.tree, Tree.kind]),
    if_neg (by simp [Node.tree, Tree.kind])]
  rw [Node.tree, Tree.kids]
  rfl

/-- Decoding starts with the kind and the body of a message. -/
theorem decode_message {kind : Nat} (hkind : kind < 2 ^ 16) (body : Node) :
    decode (treeSource (messageNode kind body).tree) .ok =
      decodeBody (treeSource (messageNode kind body).tree) kind body.tree .ok := by
  have hfits : Field.Fits 1 ⟨0, 2, kind⟩ := by simp [Field.Fits]
  have hk : (messageNode kind body).tree.uint 0 2 .ok = (kind % 2 ^ 16, .ok) :=
    uint_tree [] [] hfits (by simp)
  have hb : (messageNode kind body).tree.field 0 .ok = (body.tree, .ok) := field_tree 0
  rw [Nat.mod_eq_of_lt hkind] at hk
  have hroot : (messageNode kind body).tree.give .ok = ((messageNode kind body).tree, .ok) := rfl
  exact (run_bind_eq hroot).trans ((run_bind_eq hk).trans (run_bind_eq hb))

theorem decode_finish {id : Nat} (hid : id < 2 ^ 32) (release : Bool) :
    (decode (treeSource (finishNode id release).tree) .ok).1 = .finish id release := by
  obtain ⟨flag, hflag⟩ : ∃ flag, flag = if release then 0 else 1 := ⟨_, rfl⟩
  have hq : (Node.struct 1 [⟨0, 4, id⟩, ⟨4, 1, flag⟩] []).tree.uint 0 4 .ok = (id % 2 ^ 32, .ok) :=
    uint_tree [] [⟨4, 1, flag⟩] (f := ⟨0, 4, id⟩) (by simp [Field.Fits]) (by simp [Field.Apart])
  have hf : (Node.struct 1 [⟨0, 4, id⟩, ⟨4, 1, flag⟩] []).tree.uint 4 1 .ok = (flag % 2 ^ 8, .ok) :=
    uint_tree [⟨0, 4, id⟩] [] (f := ⟨4, 1, flag⟩) (by simp [Field.Fits]) (by simp)
  rw [Nat.mod_eq_of_lt hid] at hq
  rw [finishNode, ← hflag, decode_message (by simp)]
  refine (congrArg Prod.fst ((run_bind_eq hq).trans (run_bind_eq hf))).trans ?_
  rw [hflag]
  cases release <;> rfl

theorem decode_release {id : Nat} (hid : id < 2 ^ 32) :
    (decode (treeSource (releaseNode id).tree) .ok).1 = .release id 1 := by
  have hq : (Node.struct 1 [⟨0, 4, id⟩, ⟨4, 4, 1⟩] []).tree.uint 0 4 .ok = (id % 2 ^ 32, .ok) :=
    uint_tree [] [⟨4, 4, 1⟩] (f := ⟨0, 4, id⟩) (by simp [Field.Fits]) (by simp [Field.Apart])
  have hc : (Node.struct 1 [⟨0, 4, id⟩, ⟨4, 4, 1⟩] []).tree.uint 4 4 .ok = (1, .ok) :=
    uint_tree [⟨0, 4, id⟩] [] (f := ⟨4, 4, 1⟩) (by simp [Field.Fits]) (by simp)
  rw [Nat.mod_eq_of_lt hid] at hq
  rw [releaseNode, decode_message (by simp)]
  refine (congrArg Prod.fst (run_bind_eq hq)).trans ?_
  exact congrArg Prod.fst (run_bind_eq hc)

theorem decode_bootstrap : (decode (treeSource bootstrapNode.tree) .ok).1 = .bootstrap 0 := by
  have hq : (Node.struct 1 [] [.null]).tree.uint 0 4 .ok = (0, .ok) :=
    uint_tree_zero (f := ⟨0, 4, 0⟩) (by simp [Field.Fits]) (by simp)
  rw [bootstrapNode, decode_message (by simp)]
  exact congrArg Prod.fst (run_bind_eq hq)

theorem decode_call {cap question method : Nat} (hcap : cap < 2 ^ 32) (hq : question < 2 ^ 32)
    (hm : method < 2 ^ 16) (content : Node) :
    (decode (treeSource (callNode cap question method content).tree) .ok).1 =
      .call question registrationInterface method cap := by
  obtain ⟨fs, hfs⟩ : ∃ fs : List Field, fs = [⟨0, 4, question⟩, ⟨4, 2, method⟩,
    ⟨8, 8, registrationInterface⟩] := ⟨_, rfl⟩
  obtain ⟨cs, hcs⟩ : ∃ cs : List Node, cs = [.struct 1 [⟨0, 4, cap⟩] [.null],
    .struct 0 [] [content, .null], .null] := ⟨_, rfl⟩
  have h1 : (Node.struct 3 fs cs).tree.uint 0 4 .ok = (question % 2 ^ 32, .ok) := by
    rw [hfs]
    exact uint_tree [] [⟨4, 2, method⟩, ⟨8, 8, registrationInterface⟩] (f := ⟨0, 4, question⟩)
      (by simp [Field.Fits]) (by simp [Field.Apart])
  have h2 : (Node.struct 3 fs cs).tree.uint 4 2 .ok = (method % 2 ^ 16, .ok) := by
    rw [hfs]
    exact uint_tree [⟨0, 4, question⟩] [⟨8, 8, registrationInterface⟩] (f := ⟨4, 2, method⟩)
      (by simp [Field.Fits]) (by simp [Field.Apart])
  have h3 : (Node.struct 3 fs cs).tree.uint 8 8 .ok = (registrationInterface, .ok) := by
    rw [hfs]
    exact uint_tree [⟨0, 4, question⟩, ⟨4, 2, method⟩] [] (f := ⟨8, 8, registrationInterface⟩)
      (by simp [Field.Fits]) (by simp)
  have h4 : (Node.struct 3 fs cs).tree.field 0 .ok =
      ((Node.struct 1 [⟨0, 4, cap⟩] [.null]).tree, .ok) := by
    rw [hcs]
    exact field_tree 0
  have h5 : (Node.struct 1 [⟨0, 4, cap⟩] [.null]).tree.uint 4 2 .ok = (0, .ok) :=
    uint_tree_zero (f := ⟨4, 2, 0⟩) (by simp [Field.Fits]) (by simp [Field.Apart])
  have h6 : (Node.struct 1 [⟨0, 4, cap⟩] [.null]).tree.uint 0 4 .ok = (cap % 2 ^ 32, .ok) :=
    uint_tree [] [] (f := ⟨0, 4, cap⟩) (by simp [Field.Fits]) (by simp)
  rw [Nat.mod_eq_of_lt hq] at h1
  rw [Nat.mod_eq_of_lt hm] at h2
  rw [Nat.mod_eq_of_lt hcap] at h6
  rw [callNode, ← hfs, ← hcs, decode_message (by simp)]
  refine (congrArg Prod.fst (run_bind_eq h1)).trans ?_
  refine (congrArg Prod.fst (run_bind_eq h2)).trans ?_
  refine (congrArg Prod.fst (run_bind_eq h3)).trans ?_
  refine (congrArg Prod.fst (run_bind_eq h4)).trans ?_
  refine (congrArg Prod.fst (run_bind_eq h5)).trans ?_
  exact congrArg Prod.fst (run_bind_eq h6)

theorem decode_abort : (decode (treeSource abortNode.tree) .ok).1 = .abort reason := by
  have hb : (Node.struct 1 [] [.blob true reason]).tree.field 0 .ok =
      ((Node.blob true reason).tree, .ok) := field_tree 0
  rw [abortNode, decode_message (by simp)]
  refine (congrArg Prod.fst (run_bind_eq hb)).trans ?_
  exact congrArg Prod.fst (run_bind_eq (data_tree true reason))

end

/-! ## What building a message sends -/

/-- The message of a node. -/
def messageOf (node : Node) : Message := (decode (treeSource node.tree) .ok).1

/-- The frames of nodes one after another are the messages of the nodes. -/
theorem messagesOf_flatten {frames : List Bytes} {nodes : List Node}
    (h : List.Forall₂ (fun fr node => Encodes fr node ∧ node.words ≤ 2048) frames nodes) :
    messagesOf frames.flatten = nodes.map messageOf := by
  have hall : (∀ fr ∈ frames, IsFrame messageMax fr) ∧
      frames.map decodeFrame = nodes.map messageOf := by
    induction h with
    | nil => exact ⟨by simp, rfl⟩
    | cons hhead _ ih =>
      refine ⟨?_, ?_⟩
      · intro fr hfr
        rcases List.mem_cons.1 hfr with rfl | hfr
        · exact hhead.1.isFrame
        · exact ih.1 fr hfr
      · rw [List.map_cons, List.map_cons, ih.2, hhead.1.decodeFrame_eq hhead.2, messageOf]
  rw [messagesOf, framesOf_flatten hall.1, hall.2]

theorem messagesOf_nil : messagesOf [] = [] := messagesOf_flatten .nil

theorem Encodes.messagesOf_eq {frame : Bytes} {node : Node} (h : Encodes frame node)
    (hsmall : node.words ≤ 2048) : messagesOf frame = [messageOf node] := by
  have := messagesOf_flatten (.cons ⟨h, hsmall⟩ .nil)
  rwa [List.flatten_singleton] at this

/-- A message that is built in an output buffer is sent whole, or an error is returned. -/
theorem Built.sent {node : Node} {cap n : Nat} (hcap : cap ≤ messageMax) {rc : Result} {out : Mem}
    (h : Built node cap ((rc, n), out)) :
    (rc = .ok ∧ messagesOf (out.read 0 n) = [messageOf node]) ∨
      (rc ≠ .ok ∧ n = 0) := by
  unfold messageMax at hcap
  cases h with
  | frame hfits henc => exact Or.inl ⟨rfl, henc.messagesOf_eq (by omega)⟩
  | nothing _ hrc => exact Or.inr ⟨hrc, rfl⟩

section
variable (out : Mem)

theorem wellTyped_finishNode (id : Nat) (release : Bool) : (finishNode id release).WellTyped := by
  simp [finishNode, messageNode, Node.WellTyped, wellTypedAll, Field.Fits]

theorem wellTyped_callNode (cap question method : Nat) {content : Node} (h : content.WellTyped) :
    (callNode cap question method content).WellTyped := by
  simp [callNode, messageNode, Node.WellTyped, wellTypedAll, Field.Fits, h]

theorem wellTyped_registerNode (cred : Credentials) (opt : Options) :
    (registerNode cred opt).WellTyped := by
  have hfeatures : (featureNode opt.features).WellTyped := by
    unfold featureNode
    split
    · trivial
    cases remoteConfig opt.features <;> cases serializedHeaders opt.features <;>
      simp [Node.WellTyped, wellTypedAll]
  simp [registerNode, Node.WellTyped, wellTypedAll, Field.Fits, hfeatures]

/-- `finish` always has room for its message. -/
theorem finish_built (id : Nat) (release : Bool) :
    ∃ out', finish id release out txMax = ((.ok, 40), out') ∧
      Encodes (out'.read 0 40) (finishNode id release) := by
  have h := build_built (wellTyped_finishNode id release) (finishBody_does id release) out
    (show 16 ≤ txMax by decide) (by decide)
  have hwords : (finishNode id release).words = 3 := rfl
  rw [← finish] at h
  generalize finish id release out txMax = o at h
  cases h with
  | @frame out' _ henc => exact ⟨out', by rw [hwords], by rwa [hwords] at henc⟩
  | nothing hbig => exact absurd hbig (by rw [hwords]; decide)

/-- `release_cap` has room for its message behind the Finish. -/
theorem releaseCap_built (r : Client) {cap : Nat} (hlo : 40 ≤ cap) (hhi : cap ≤ txMax) :
    ∃ out', releaseCap r out cap = ((.ok, 40), out') ∧
      Encodes (out'.read 0 40) (releaseNode r.capability) := by
  have hnode : (releaseNode r.capability).WellTyped := by
    simp [releaseNode, messageNode, Node.WellTyped, wellTypedAll, Field.Fits]
  unfold txMax at hhi
  have h := build_built hnode (releaseBody_does r) out (show 16 ≤ cap by omega)
    (show cap ≤ messageMax by unfold messageMax; omega)
  have hwords : (releaseNode r.capability).words = 3 := rfl
  rw [← releaseCap] at h
  generalize releaseCap r out cap = o at h
  cases h with
  | @frame out' _ henc => exact ⟨out', by rw [hwords], by rwa [hwords] at henc⟩
  | nothing hbig =>
    rw [hwords] at hbig
    omega

theorem words_abortNode : abortNode.words = 9 := by
  have hlen : (stored true reason).length = 40 := by decide
  rw [abortNode, messageNode]
  simp [Node.words, wordsAll, hlen]

/-- `fail` always has room for its message. -/
theorem abort_built :
    ∃ out', build out txMax abortBody = ((.ok, 88), out') ∧ Encodes (out'.read 0 88) abortNode := by
  have hnode : abortNode.WellTyped := by
    simp [abortNode, messageNode, Node.WellTyped, wellTypedAll, Field.Fits]
  have h := build_built hnode abortBody_does out (show 16 ≤ txMax by decide) (by decide)
  have hwords := words_abortNode
  generalize build out txMax abortBody = o at h
  cases h with
  | @frame out' _ henc => exact ⟨out', by rw [hwords], by rwa [hwords] at henc⟩
  | nothing hbig => exact absurd hbig (by rw [hwords]; decide)

end

end EspCfTunnel.Rpc
