import PeerLink.Proofs.Gssapi.Confidentiality
import PeerLink.Proofs.Metadata.Interoperation

/-!
# Honest handshakes complete

A context that goes through any number of rounds and then completes (`Establishes`), a server that
answers every token, and a READY in each direction bring a client to traffic
(`Client.handshake_completes`). The exchange of tokens is an induction over the rounds
(`Client.exists_exchange`): an answer of the context leaves the client in one place, whether the
context was asked for the first token or for a later one (`Client.next_advanced`).
-/

set_option autoImplicit false

namespace PeerLink.Gssapi

open Mechanism (Call Answer)

/-! ## Honest partners -/

/-- A round of the token exchange: the token that the context has for the server, and the frame with
the token that the server answers. -/
structure Round where
  sent : Bytes
  received : Bytes
  reply : Frame

/-- A round whose tokens can travel. The server is not sent an empty token. -/
structure Round.Proper (r : Round) : Prop where
  sent_ne_nil : r.sent ≠ []
  sent_lt : r.sent.length < Bytes.wordLimit
  received_lt : r.received.length < Bytes.wordLimit
  reply_data : r.reply.data = framed Command.initiate r.received

section Partners

variable {σ : Type}

/-- Called with an input and then with the server's token of every round, the context has the tokens
of the rounds for the server and completes after the last round with a final token. -/
inductive Establishes (context : SecurityContext σ) (request : Option Bytes → InitRequest)
    (final : Bytes) : Option Bytes → σ → List Round → σ → Prop
  | finish {input : Option Bytes} {state next : σ} :
      context.init (request input) state = (.ok (.complete final), next) →
      Establishes context request final input state [] next
  | round {input : Option Bytes} {state mid last : σ} {r : Round} {rounds : List Round} :
      context.init (request input) state = (.ok (.continueNeeded r.sent), mid) →
      Establishes context request final (some r.received) mid rounds last →
      Establishes context request final input state (r :: rounds) last

/-- A frame leaves as it is, or where traffic is protected as the token that the context wraps it
in. -/
inductive Leaves (context : SecurityContext σ) (f : Frame) : Bool → σ → Frame → σ → Prop
  | bare {state : σ} : Leaves context f false state f state
  | wrapped {state next : σ} {token : Bytes} :
      context.wrap (plaintextOf f) true state = (.ok token, next) →
      token.length < Bytes.wordLimit →
      Leaves context f true state (.ofParts (framed Command.message token) f.flags) next

/-- A frame brings its bytes, or where traffic is protected those that the context finds encrypted
in its token, after the byte of flags. -/
inductive Brings (context : SecurityContext σ) (f : Frame) : Bool → σ → Bytes → Prop
  | bare {state : σ} : Brings context f false state f.data
  | unwrapped {state next : σ} {token data : Bytes} {flags : UInt8} :
      f.data = framed Command.message token → token.length < Bytes.wordLimit →
      context.unwrap token state = (.ok ⟨flags :: data, true⟩, next) →
      Brings context f true state data

end Partners

namespace Client

variable {σ : Type} {c : Client σ} {f out : Frame} {final token block : Bytes}
  {rounds : List Round} {answer : InitAnswer} {session state left : σ}

/-! ## The calls of a handshake -/

/-- The calls of the token exchange: a token is sent and the server's answer taken in. -/
def exchangeCalls (rounds : List Round) : List Call :=
  rounds.flatMap fun r => [.next, .process r.reply]

/-- The calls of a handshake: the token exchange, the final token if there is one, READY in both
directions. -/
def handshakeCalls (rounds : List Round) (final : Bytes) (f : Frame) : List Call :=
  exchangeCalls rounds ++ (if final = [] then [] else [.next]) ++ [.next, .process f]

/-- The answers to the calls of the token exchange: every round sends its token. -/
def exchangeAnswers (rounds : List Round) : List Answer :=
  rounds.flatMap fun r => [.frame (.ofCommand (framed Command.initiate r.sent)), .done]

/-- The answers to the calls that establish the context: the final token is sent if it is not
empty. -/
def establishmentAnswers (rounds : List Round) (final : Bytes) : List Answer :=
  exchangeAnswers rounds ++
    (if final = [] then [] else [.frame (.ofCommand (framed Command.initiate final))])

/-! ## The token exchange -/

/-- The client once an answer of the context is taken in: a token is due, or READY. -/
def advanced (c : Client σ) (answer : InitAnswer) (session : σ) : Client σ :=
  { c.answered answer session with
    phase := if answer.token?.isSome then .callNextInit else .sendReady }

/-- A client that asks for its first token goes on as after any answer of the context. -/
theorem next_advanced (hf : c.failed = false) (hphase : c.phase = .callNextInit)
    (hp : c.pending = none) (h : c.context.init (c.request none) c.session = (answer, session))
    (hr : answer.refusal? = none) : c.next = (c.advanced answer session).next := by
  rw [(Loaded.fetched hp h hr).next_eq hf hphase]
  cases ht : answer.token? with
  | some sent =>
    -- the answered client is where its token is sent
    have hsame : c.advanced answer session = c.answered answer session := by
      simp [advanced, answered, ht, hphase]
    have hheld : (c.answered answer session).pending = some (.outbound sent) := by
      simp [answered, ht]
    rw [hsame, (Loaded.held hheld).next_eq hf hphase]
  | none =>
    rw [flush_of_pending_none (by simp [answered, ht])]
    simp [next, advanced, answered, ht, hf]

/-- A token that an answer left is sent. Then the server is to answer, or READY is due. -/
theorem step_advanced (hf : c.failed = false) (ht : answer.token? = some token)
    (hlen : token.length < Bytes.wordLimit) :
    (c.advanced answer session).step .next = (.frame (.ofCommand (framed Command.initiate token)),
      { c with
        session := session
        pending := none
        established := c.established || answer.completes
        phase := if c.established || answer.completes then .sendReady else .recvNextToken }) := by
  have hphase : (c.advanced answer session).phase = .callNextInit := by simp [advanced, ht]
  have hp : (c.advanced answer session).pending = some (.outbound token) := by
    simp [advanced, answered, ht]
  have hs := Step.handed (c := c.advanced answer session) hf hphase (.held hp) hp hlen
  exact hs.eq

/-- The client that waits for the server's answer to a token. -/
def waiting (c : Client σ) (session : σ) : Client σ :=
  { c with session := session, pending := none, phase := .recvNextToken }

/-- A token that needs an answer is sent, and the server is to answer. -/
theorem step_sent (hf : c.failed = false) (he : c.established = false) (hne : token ≠ [])
    (hlen : token.length < Bytes.wordLimit) :
    (c.advanced (.ok (.continueNeeded token)) session).step .next =
      (.frame (.ofCommand (framed Command.initiate token)), c.waiting session) := by
  have ht : InitAnswer.token? (.ok (.continueNeeded token)) = some token := if_neg hne
  rw [step_advanced hf ht hlen]
  simp [waiting, InitAnswer.completes, he]

/-- The server's token is given to the context, and the client goes on from its answer. -/
theorem step_received (hf : c.failed = false) (hread : readToken? Command.initiate f = some token)
    (h : c.context.init (c.request (some token)) state = (answer, session))
    (hr : answer.refusal? = none) :
    (c.waiting state).step (.process f) = (.done, c.advanced answer session) := by
  have hs := Step.tokenTaken (c := c.waiting state) hf rfl hread h hr
  exact hs.eq

/-- The token exchange of a client whose context is asked with an input: the context answers, and
the client goes on from that answer through all rounds to the answer that completes it. -/
theorem exists_exchange {context : SecurityContext σ} {request : Option Bytes → InitRequest}
    {input : Option Bytes} (h : Establishes context request final input session rounds state)
    (hcontext : c.context = context) (hrequest : c.request = request) (hf : c.failed = false)
    (he : c.established = false) (hrounds : ∀ r ∈ rounds, r.Proper) :
    ∃ (answer : InitAnswer) (next : σ),
      context.init (request input) session = (answer, next) ∧ answer.refusal? = none ∧
      (c.advanced answer next).answers (exchangeCalls rounds) = exchangeAnswers rounds ∧
      (c.advanced answer next).after (exchangeCalls rounds) =
        c.advanced (.ok (.complete final)) state := by
  induction h with
  | finish hinit => exact ⟨_, _, hinit, rfl, rfl, rfl⟩
  | @round input session mid last r rounds hinit _ ih =>
    obtain ⟨hr, hrest⟩ := List.forall_mem_cons.1 hrounds
    obtain ⟨answer, next, hnext, hrefusal, hanswers, hafter⟩ := ih hrest
    -- the token of this round is sent, and the next answer comes with the server's token
    have hsent := @step_sent σ c r.sent mid hf he hr.sent_ne_nil hr.sent_lt
    have hread := readToken?_eq_some_iff.2 ⟨hr.reply_data, hr.received_lt⟩
    rw [← hcontext, ← hrequest] at hnext
    have hreceived := step_received hf hread hnext hrefusal
    refine ⟨_, mid, hinit, if_neg hr.sent_ne_nil, ?_, ?_⟩
    · show (c.advanced _ mid).answers (.next :: .process r.reply :: exchangeCalls rounds) = _
      rw [answers, answers, hsent, hreceived, hanswers]
      rfl
    · show (c.advanced _ mid).after (.next :: .process r.reply :: exchangeCalls rounds) = _
      rw [after, after, hsent, hreceived, hafter]

/-! ## The final token and READY -/

/-- The client that is to send READY. -/
def announcing (c : Client σ) (session : σ) : Client σ :=
  { c with session := session, pending := none, established := true, phase := .sendReady }

/-- The final token is sent if it is not empty. -/
theorem answers_final (hf : c.failed = false) (hlen : final.length < Bytes.wordLimit) :
    (c.advanced (.ok (.complete final)) state).answers (if final = [] then [] else [.next]) =
        (if final = [] then [] else [.frame (.ofCommand (framed Command.initiate final))]) ∧
      (c.advanced (.ok (.complete final)) state).after (if final = [] then [] else [.next]) =
        c.announcing state := by
  by_cases hfinal : final = []
  · subst hfinal
    refine ⟨rfl, ?_⟩
    simp [after, advanced, answered, announcing, InitAnswer.token?, InitAnswer.completes]
  · have ht : InitAnswer.token? (.ok (.complete final)) = some final := if_neg hfinal
    rw [if_neg hfinal, if_neg hfinal, answers, after, step_advanced hf ht hlen]
    refine ⟨rfl, ?_⟩
    simp [after, announcing, InitAnswer.completes]

/-- A READY that leaves is sent. -/
theorem announces_of_leaves {encrypting : Bool} {ready : Frame}
    (h : Leaves c.context ready encrypting state out left) (henc : c.encrypting = encrypting)
    (hstate : c.session = state) (hcmd : c.announcement.command Command.ready = .ok ready) :
    ∃ made, Announces c (.frame out) made { c with session := left, phase := .recvReady } := by
  cases h with
  | bare =>
    subst hstate
    exact ⟨[], .bare hcmd henc⟩
  | wrapped hwrap hlen =>
    subst hstate
    have ht := Transforms.protect hwrap
    rw [sealed_eq_ok_iff.2 ⟨_, rfl, hlen, rfl⟩] at ht
    exact ⟨_, .wrapped hcmd henc ht⟩

/-- A frame that brings bytes is read as a frame with these bytes. -/
theorem reads_of_brings {encrypting : Bool} {data : Bytes}
    (h : Brings c.context f encrypting state data) (henc : c.encrypting = encrypting)
    (hstate : c.session = state) :
    ∃ ready made last, Reads c f (.ok ready) made last ∧ ready.data = data := by
  cases h with
  | bare => exact ⟨f, [], c.session, .bare henc, rfl⟩
  | @unwrapped _ next token data flags hdata hlen hunwrap =>
    subst hstate
    have hread := readToken?_eq_some_iff.2 ⟨hdata, hlen⟩
    have ht := Transforms.recover hread hunwrap
    rw [opened_eq_ok_iff.2 ⟨flags, data, rfl, rfl⟩] at ht
    exact ⟨_, _, next, .recovered henc (isNamed_of_readToken? hread) ht, rfl⟩

/-- Neither READY nor the command that protects it is taken for an ERROR. -/
theorem isNamed_error_of_brings {context : SecurityContext σ} {encrypting : Bool}
    (h : Brings context f encrypting state (Command.ready ++ block)) :
    f.isNamed Command.error = false := by
  generalize hdata : Command.ready ++ block = data at h
  cases h with
  | bare =>
    rw [Frame.isNamed, ← hdata]
    rfl
  | unwrapped hframed _ _ =>
    rw [Frame.isNamed, hframed]
    rfl

/-- A frame with the name READY and a block is judged by its block. -/
theorem judge_eq {ready : Frame} (hdata : ready.data = Command.ready ++ block) :
    c.judge ready = c.announcement.accept block := by
  have hname : ready.isNamed Command.ready = true := Frame.isNamed_iff.2 ⟨block, hdata⟩
  rw [judge, if_pos hname, Command.checkStructure_of_ready hdata, hdata]
  dsimp only
  rw [List.drop_left]

/-- READY in both directions brings the client to traffic. -/
theorem answers_ready {ready : Frame} {peer : Properties} (hf : c.failed = false)
    (hphase : c.phase = .sendReady) (hcmd : c.announcement.command Command.ready = .ok ready)
    (hleaves : Leaves c.context ready c.encrypting c.session out left)
    (hbrings : Brings c.context f c.encrypting left (Command.ready ++ block))
    (haccept : c.announcement.accept block = .ok peer) :
    c.answers [.next, .process f] = [.frame out, .done] ∧ ∃ last, c.after [.next, .process f] =
      { c with session := last, peer := peer, phase := .connected } := by
  obtain ⟨made, hannounces⟩ := announces_of_leaves hleaves rfl rfl hcmd
  have hsent := (Step.announced hf hphase hannounces).eq
  -- the client that waits for READY reads the frame and judges it by its block
  have hherr := isNamed_error_of_brings hbrings
  obtain ⟨inner, more, last, hreads, hdata⟩ :=
    reads_of_brings (c := { c with session := left, phase := .recvReady }) hbrings rfl rfl
  have hjudge : { c with session := left, phase := .recvReady }.judge inner = .ok peer :=
    (judge_eq hdata).trans haccept
  have htaken := Step.readyTaken (c := { c with session := left, phase := .recvReady }) hf rfl hherr
    hreads hjudge
  refine ⟨?_, last, ?_⟩
  · rw [answers, answers, hsent, htaken.eq]
    rfl
  · rw [after, after, hsent, htaken.eq]
    rfl

/-- A READY that cannot be written ends the handshake. -/
theorem answers_unwritable {fault : Fault} (hf : c.failed = false) (hphase : c.phase = .sendReady)
    (hcmd : c.announcement.command Command.ready = .error fault) :
    c.answers [.next, .process f] = [.failed fault, .failed (.sequence .alreadyFailed)] := by
  have hsent := (Step.announced hf hphase (.unwritable hcmd)).eq
  have hrefused := Step.haltedProcess (c := { c with failed := true }) (f := f) rfl
  rw [answers, answers, hsent, hrefused.eq]
  rfl

/-! ## Whole handshakes -/

theorem Built.fresh {options : SecurityOptions} {context : SecurityContext σ}
    (h : Built options context session c) :
    c.context = context ∧ c.session = session ∧ c.failed = false ∧ c.phase = .callNextInit ∧
      c.pending = none ∧ c.established = false := by
  obtain ⟨serviceName, mechanisms, rfl⟩ := h.eq_initial
  exact ⟨rfl, rfl, rfl, rfl, rfl, rfl⟩

theorem answers_of_next_eq {c' : Client σ} (h : c.next = c'.next) (calls : List Call) :
    c.answers (.next :: calls) = c'.answers (.next :: calls) ∧
      c.after (.next :: calls) = c'.after (.next :: calls) := by
  have hstep : c.step .next = c'.step .next := by rw [step, step, h]
  rw [answers, after, hstep]
  exact ⟨rfl, rfl⟩

/-- The calls of a handshake begin with a call for a command. -/
theorem exists_handshakeCalls (rounds : List Round) (final : Bytes) (f : Frame) :
    ∃ calls, handshakeCalls rounds final f = .next :: calls := by
  cases rounds with
  | cons r rounds => exact ⟨_, rfl⟩
  | nil =>
    by_cases hfinal : final = []
    · exact ⟨[.process f], by rw [handshakeCalls, if_pos hfinal]; rfl⟩
    · exact ⟨[.next, .process f], by rw [handshakeCalls, if_neg hfinal]; rfl⟩

/-- A new client establishes its context and is then to send READY. -/
theorem answers_establishment (hf : c.failed = false) (hphase : c.phase = .callNextInit)
    (hp : c.pending = none) (he : c.established = false)
    (h : Establishes c.context c.request final none c.session rounds state)
    (hrounds : ∀ r ∈ rounds, r.Proper) (hfinal : final.length < Bytes.wordLimit) (f : Frame) :
    c.answers (handshakeCalls rounds final f) = establishmentAnswers rounds final ++
        (c.announcing state).answers [.next, .process f] ∧
      c.after (handshakeCalls rounds final f) =
        (c.announcing state).after [.next, .process f] := by
  obtain ⟨answer, next, hinit, hrefusal, hanswers, hafter⟩ :=
    exists_exchange h rfl rfl hf he hrounds
  obtain ⟨hlast, hannouncing⟩ := @answers_final σ c final state hf hfinal
  have hsent : (c.advanced answer next).answers
      (exchangeCalls rounds ++ if final = [] then [] else [.next]) =
        establishmentAnswers rounds final := by
    rw [answers_append, hanswers, hafter, hlast, establishmentAnswers]
  have hdone : (c.advanced answer next).after
      (exchangeCalls rounds ++ if final = [] then [] else [.next]) = c.announcing state := by
    rw [after_append, hafter, hannouncing]
  -- the first call leads where the context's answer does
  obtain ⟨calls, hcalls⟩ := exists_handshakeCalls rounds final f
  obtain ⟨hsame, hsame'⟩ :=
    answers_of_next_eq (next_advanced hf hphase hp hinit hrefusal) calls
  rw [hcalls, hsame, hsame', ← hcalls, handshakeCalls]
  constructor
  · rw [answers_append, hsent, hdone]
  · rw [after_append, hdone]

/-- An honest handshake completes after any number of rounds: the tokens of the rounds are sent, the
final token if it is not empty, and READY, and the client ends ready with what the server announced.
This is on the condition that every property value the client announces is shorter than
`Bytes.wordLimit`, that is 4 GiB, since a length field cannot hold more. The tokens are bounded
likewise. Where a value is longer, the rounds still go through, and the call that should give READY
fails with the length of such a value. -/
theorem handshake_completes {options : SecurityOptions} {context : SecurityContext σ}
    (h : Built options context session c)
    (hnames : ∀ entry ∈ options.metadata.entries, entry.1.utf8ByteSize ≤ 255)
    (hrounds : ∀ r ∈ rounds, r.Proper) (hfinal : final.length < Bytes.wordLimit)
    (hestablishes : Establishes context c.request final none session rounds state)
    (hleaves : Leaves context ((Announcement.ofOptions options).written Command.ready)
      (!options.gssapi.plaintext) state out left)
    (hbrings : Brings context f (!options.gssapi.plaintext) left (Command.ready ++ block))
    {entries : List Property} (hparse : Metadata.parseBlock block = .ok entries)
    (hapart : entries.Pairwise Properties.Apart) {p : Property} (hmem : p ∈ entries)
    (hname : Letters.sameIgnoringCase p.name Property.socketType = true)
    (hcompatible : options.socketType.isCompatible (Utf8.lossy p.value) = true) :
    ((∀ q ∈ (Announcement.ofOptions options).properties, q.value.length < Bytes.wordLimit) →
      c.answers (handshakeCalls rounds final f) =
        establishmentAnswers rounds final ++ [.frame out, .done] ∧
      (c.after (handshakeCalls rounds final f)).phase = .connected ∧
      (c.after (handshakeCalls rounds final f)).status = .ready ∧
      (c.after (handshakeCalls rounds final f)).established = true ∧
      (c.after (handshakeCalls rounds final f)).peer.entries = entries) ∧
    ((¬ ∀ q ∈ (Announcement.ofOptions options).properties, q.value.length < Bytes.wordLimit) →
      ∃ q ∈ (Announcement.ofOptions options).properties, Bytes.wordLimit ≤ q.value.length ∧
        c.answers (handshakeCalls rounds final f) = establishmentAnswers rounds final ++
          [.failed (.malformed (.longPropertyValue q.value.length)),
            .failed (.sequence .alreadyFailed)]) := by
  obtain ⟨hcontext, hsession, hf, hphase, hp, he⟩ := h.fresh
  subst hcontext hsession
  obtain ⟨hanswers, hafter⟩ :=
    answers_establishment hf hphase hp he hestablishes hrounds hfinal f
  obtain ⟨hwritten, hrefused⟩ :=
    @Announcement.command_of_names (.ofOptions options) Command.ready
      (Announcement.names_of_metadata hnames)
  rw [← h.encrypting_eq] at hleaves hbrings
  rw [hanswers, hafter]
  constructor
  · intro hvalues
    have hcmd := hwritten hvalues
    obtain ⟨peer, haccept, hentries⟩ := Announcement.accept_of_parseBlock
      (a := .ofOptions options) hparse hapart hmem hname hcompatible
    rw [← h.announcement_eq] at hcmd haccept hleaves
    obtain ⟨hready, last, hconnected⟩ :=
      answers_ready (c := c.announcing state) hf rfl hcmd hleaves hbrings haccept
    rw [hready, hconnected]
    refine ⟨rfl, rfl, ?_, rfl, hentries⟩
    simp [status, announcing, hf]
  · intro hlong
    obtain ⟨q, hq, hvalue, hcmd⟩ := hrefused hlong
    refine ⟨q, hq, hvalue, ?_⟩
    rw [← h.announcement_eq] at hcmd
    rw [answers_unwritable (c := c.announcing state) hf rfl hcmd]

/-- One round, a final token and protected READYs. -/
theorem handshake_completes_one_round :
    let c := sample false [.ok (.continueNeeded [1]), .ok (.complete [2])]
    let rounds : List Round := [⟨[1], [7], .ofCommand (framed Command.initiate [7])⟩]
    (c.after (handshakeCalls rounds [2] sampleReady)).status = .ready ∧
      (c.after (handshakeCalls rounds [2] sampleReady)).peer.entries =
        (Announcement.ofOptions { socketType := .router }).properties := by
  intro c rounds
  have hrounds : ∀ r ∈ rounds, r.Proper := by
    intro r hr
    rw [List.mem_singleton.1 hr]
    exact ⟨by decide, by decide, by decide, rfl⟩
  have hestablishes : Establishes scripted c.request [2] none
      [.ok (.continueNeeded [1]), .ok (.complete [2])] rounds [] :=
    .round (r := ⟨[1], [7], .ofCommand (framed Command.initiate [7])⟩) rfl (.finish rfl)
  have hparse : Metadata.parseBlock ((Announcement.ofOptions
      { socketType := .router }).properties.flatMap Property.encoded) =
      .ok (Announcement.ofOptions { socketType := .router }).properties :=
    Metadata.parseBlock_flatMap_encoded (by decide +kernel)
  have hunwrap : ∀ data, scripted.unwrap (2 :: data) [] = (.ok ⟨2 :: data, true⟩, []) :=
    fun _ => rfl
  have hbrings : Brings scripted sampleReady true [] (Command.ready ++ (Announcement.ofOptions
      { socketType := .router }).properties.flatMap Property.encoded) :=
    .unwrapped rfl (by decide +kernel) (hunwrap _)
  obtain ⟨hcompletes, -⟩ := handshake_completes (built_sample false _) (by decide) hrounds
    (by decide) hestablishes (.wrapped rfl (by decide +kernel)) hbrings hparse (by decide +kernel)
    List.mem_cons_self (by decide) (by decide +kernel)
  obtain ⟨-, -, hready, -, hpeer⟩ := hcompletes (by decide +kernel)
  exact ⟨hready, hpeer⟩

end Client

end PeerLink.Gssapi
