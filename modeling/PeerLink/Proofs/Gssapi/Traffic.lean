import Mathlib.Data.List.Forall2
import PeerLink.Proofs.Gssapi.Confidentiality

/-!
# Protected traffic arrives

Two clients that protect traffic, one over a context that protects and one over a context that
recovers what the first one made (`Conveys`), hand every stream of frames over unchanged: an induction
over the stream, in which one frame takes both contexts one step further
(`Client.Protects.step_encode`, `Client.Protects.step_decode`). The READY that a client sends in its
handshake is recovered in the same way (`Client.decodeMessage_ready`).
-/

set_option autoImplicit false

namespace PeerLink.Gssapi

open Mechanism (Call Answer)

variable {σ τ : Type}

/-! ## Contexts that fit each other -/

/-- A context recovers a plaintext, as encrypted, from a token that MESSAGE can carry. -/
def Carries (context : SecurityContext τ) (token plaintext : Bytes) (state next : τ) : Prop :=
  token.length < Bytes.wordLimit ∧ context.unwrap token state = (.ok ⟨plaintext, true⟩, next)

/-- One context protects plaintexts in order, and the other one recovers them from the tokens. -/
inductive Conveys (sender : SecurityContext σ) (receiver : SecurityContext τ) :
    σ → τ → List Bytes → Prop
  | nil {s : σ} {t : τ} : Conveys sender receiver s t []
  | cons {s s' : σ} {t t' : τ} {plaintext token : Bytes} {more : List Bytes} :
      sender.wrap plaintext true s = (.ok token, s') → Carries receiver token plaintext t t' →
      Conveys sender receiver s' t' more → Conveys sender receiver s t (plaintext :: more)

/-! ## One frame -/

section Frames

variable {f : Frame} {token : Bytes}

/-- The frame that protects `f` as a token. -/
def enclosing (f : Frame) (token : Bytes) : Frame :=
  .ofParts (framed Command.message token) f.flags

/-- The flags of a frame stand on the outside as well. -/
theorem enclosing_flags (f : Frame) (token : Bytes) :
    (enclosing f token).more = f.more ∧ (enclosing f token).command = f.command := by
  have hmore : (Frame.ofParts f.data f.flags).more = f.more :=
    congrArg Frame.more (Frame.ofParts_flags f)
  have hcommand : (Frame.ofParts f.data f.flags).command = f.command :=
    congrArg Frame.command (Frame.ofParts_flags f)
  exact ⟨hmore, hcommand⟩

theorem sealed_of_lt (hlen : token.length < Bytes.wordLimit) :
    sealed f (.ok token) = .ok (enclosing f token) :=
  sealed_eq_ok_iff.2 ⟨token, rfl, hlen, rfl⟩

theorem readToken?_enclosing (hlen : token.length < Bytes.wordLimit) :
    readToken? Command.message (enclosing f token) = some token :=
  readToken?_eq_some_iff.2 ⟨rfl, hlen⟩

theorem opened_plaintextOf (f : Frame) : opened (.ok ⟨plaintextOf f, true⟩) = .ok f :=
  opened_eq_ok_iff.2 ⟨f.flags, f.data, rfl, (Frame.ofParts_flags f).symm⟩

/-- What was protected is recovered. -/
theorem decodeMessage_enclosing {context : SecurityContext τ} {t t' : τ}
    (h : Carries context token (plaintextOf f) t t') :
    decodeMessage context (enclosing f token) t = (.ok f, t') := by
  rw [decodeMessage_eq (readToken?_enclosing h.1) h.2, opened_plaintextOf]

end Frames

namespace Client

/-- A client that is ready and protects its traffic. -/
structure Protects (c : Client σ) : Prop where
  ready : c.status = .ready
  encrypting : c.encrypting = true

/-- The client with its context in another state. -/
def withSession (c : Client σ) (session : σ) : Client σ := { c with session := session }

theorem Protects.withSession {c : Client σ} (h : c.Protects) (session : σ) :
    (c.withSession session).Protects := ⟨h.ready, h.encrypting⟩

section Step

variable {c : Client σ} {f : Frame} {token : Bytes} {session : σ}

theorem Protects.step_encode (h : c.Protects)
    (hwrap : c.context.wrap (plaintextOf f) true c.session = (.ok token, session))
    (hlen : token.length < Bytes.wordLimit) :
    c.step (.encode f) = (.frame (enclosing f token), c.withSession session) := by
  rw [Transforms.step_eq h.ready h.encrypting (.protect hwrap), sealed_of_lt hlen]
  rfl

theorem Protects.step_decode (h : c.Protects)
    (hcarries : Carries c.context token (plaintextOf f) c.session session) :
    c.step (.decode (enclosing f token)) = (.frame f, c.withSession session) := by
  have hread := readToken?_enclosing (f := f) hcarries.1
  rw [Transforms.step_eq h.ready h.encrypting (.recover hread hcarries.2), opened_plaintextOf]
  rfl

end Step

/-! ## Streams -/

/-- A stream that one client sends and the other one receives. -/
structure Arrives (sender : Client σ) (receiver : Client τ) (stream out : List Frame) : Prop where
  sent : sender.answers (stream.map .encode) = out.map .frame
  received : receiver.answers (out.map .decode) = stream.map .frame
  /-- Every frame shows its flags on the way. -/
  flags : List.Forall₂ (fun f g => g.more = f.more ∧ g.command = f.command) stream out
  /-- Both stay ready all the time. -/
  senderReady : ∀ n, (sender.after ((stream.take n).map .encode)).status = .ready
  receiverReady : ∀ n, (receiver.after ((out.take n).map .decode)).status = .ready

/-- A stream of frames arrives where the contexts convey their plaintexts. -/
theorem exists_arrives {c : Client σ} {d : Client τ} {stream : List Frame} (hc : c.Protects)
    (hd : d.Protects)
    (hconveys : Conveys c.context d.context c.session d.session (stream.map plaintextOf)) :
    ∃ out, Arrives c d stream out := by
  induction stream generalizing c d with
  | nil =>
    refine ⟨[], rfl, rfl, .nil, fun n => ?_, fun n => ?_⟩
    · rw [List.take_nil]
      exact hc.ready
    · rw [List.take_nil]
      exact hd.ready
  | cons f stream ih =>
    rw [List.map_cons] at hconveys
    cases hconveys with
    | @cons _ s' _ t' _ token _ hwrap hcarries hmore =>
      have hsend := hc.step_encode hwrap hcarries.1
      have hreceive := hd.step_decode hcarries
      obtain ⟨out, hout⟩ := ih (hc.withSession s') (hd.withSession t') hmore
      refine ⟨enclosing f token :: out, ?_, ?_, ?_, ?_, ?_⟩
      · rw [List.map_cons, answers, hsend, hout.sent]
        rfl
      · rw [List.map_cons, answers, hreceive, hout.received]
        rfl
      · exact .cons (enclosing_flags f token) hout.flags
      · intro n
        cases n with
        | zero => exact hc.ready
        | succ n =>
          rw [List.take_succ_cons, List.map_cons, after, hsend]
          exact hout.senderReady n
      · intro n
        cases n with
        | zero => exact hd.ready
        | succ n =>
          rw [List.take_succ_cons, List.map_cons, after, hreceive]
          exact hout.receiverReady n

/-! ## READY -/

/-- The command that a client gives out after its tokens is recovered as its READY. -/
theorem decodeMessage_ready {c : Client σ} {receiver : SecurityContext τ} {t t' : τ} {out : Frame}
    (henc : c.encrypting = true) (hout : (c.step .next).1 = .frame out)
    (hname : out.isNamed Command.initiate = false)
    (hcarries : ∀ plaintext token, .wrap plaintext true (.ok token) ∈ c.consulted .next →
      Carries receiver token plaintext t t') :
    decodeMessage receiver out t = (.ok (c.announcement.written Command.ready), t') := by
  rcases (step_consulted c .next).sends henc hout with
    ⟨token, -, rfl⟩ | ⟨ready, token, hcmd, hmade, rfl⟩
  · -- a token of the exchange goes out as INITIATE
    have hinitiate : (Frame.ofCommand (framed Command.initiate token)).isNamed Command.initiate =
        true := Frame.isNamed_iff.2 ⟨_, List.append_assoc _ _ _⟩
    cases hinitiate.symm.trans hname
  · rw [Announcement.written, ← (Announcement.command_eq_ok_iff.1 hcmd).2]
    exact decodeMessage_enclosing (hcarries _ _ hmade)

/-- Traffic and READY arrive. -/
theorem traffic_arrives (c : Client σ) (d : Client τ) :
    (∀ stream : List Frame, c.Protects → d.Protects →
      Conveys c.context d.context c.session d.session (stream.map plaintextOf) →
      ∃ out, Arrives c d stream out) ∧
    ∀ (t t' : τ) (out : Frame), c.encrypting = true → (c.step .next).1 = .frame out →
      out.isNamed Command.initiate = false →
      (∀ plaintext token, .wrap plaintext true (.ok token) ∈ c.consulted .next →
        Carries d.context token plaintext t t') →
      decodeMessage d.context out t =
        (.ok (.ofCommand (Command.ready ++ c.announcement.properties.flatMap Property.encoded)), t') := by
  constructor
  · intro stream hc hd hconveys
    exact exists_arrives hc hd hconveys
  · intro t t' out henc hout hname hcarries
    exact decodeMessage_ready henc hout hname hcarries

/-- The scripted context recovers what it has protected. -/
theorem conveys_scripted {plaintexts : List Bytes} (s t : List InitAnswer)
    (h : ∀ plaintext ∈ plaintexts, plaintext.length < Bytes.wordLimit) :
    Conveys scripted scripted s t plaintexts := by
  induction plaintexts with
  | nil => exact .nil
  | cons plaintext more ih =>
    obtain ⟨hplaintext, hmore⟩ := List.forall_mem_cons.1 h
    exact .cons rfl ⟨hplaintext, rfl⟩ (ih hmore)

/-- An empty frame, one that looks like READY and one that looks like a protected message. -/
def sampleStream : List Frame :=
  [⟨[], false, false⟩, ⟨Command.ready ++ [1], true, false⟩, ⟨framed Command.message [2, 3], true, true⟩]

/-- Whether a call protects a plaintext as a token that is the same bytes and fits MESSAGE. -/
def leavesPlaintext : ContextCall → Bool
  | .wrap plaintext _ (.ok token) => token == plaintext && token.length < Bytes.wordLimit
  | _ => true

theorem traffic_arrives_sample :
    let c := sample false [.ok (.complete [])]
    let connected := c.after [.next, .process sampleReady]
    let own := c.announcement.written Command.ready
    (∃ out, Arrives connected connected sampleStream out) ∧
      decodeMessage scripted (enclosing own (plaintextOf own)) [] = (.ok own, []) := by
  intro c connected own
  have hcontext : connected.context = scripted := (fixed_after c _).context
  have hprotects : connected.Protects := ⟨by decide +kernel, (fixed_after c _).encrypting⟩
  have hconveys : Conveys connected.context connected.context connected.session connected.session
      (sampleStream.map plaintextOf) := by
    rw [hcontext]
    exact conveys_scripted _ _ (by decide)
  have hcarries : ∀ plaintext token, .wrap plaintext true (.ok token) ∈ c.consulted .next →
      Carries scripted token plaintext [] [] := by
    intro plaintext token hmem
    have hall : (c.consulted .next).all leavesPlaintext = true := by decide +kernel
    obtain ⟨heq, hlen⟩ := Bool.and_eq_true_iff.1 (List.all_eq_true.1 hall _ hmem)
    obtain rfl := eq_of_beq heq
    exact ⟨of_decide_eq_true hlen, rfl⟩
  exact ⟨(traffic_arrives connected connected).1 _ hprotects hprotects hconveys,
    (traffic_arrives c c).2 [] [] _ rfl (by decide +kernel) (by decide +kernel) hcarries⟩

end Client

end PeerLink.Gssapi
