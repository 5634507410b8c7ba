import PeerLink.Proofs.Gssapi.Reachable
import PeerLink.Proofs.Metadata.Blocks

/-!
# No downgrade

A client that protects traffic sends nothing but tokens of the exchange and what the context
protected, takes nothing in but what the context recovered as encrypted, and asks for encryption
whenever it asks for protection (`Client.Protecting`). A client that does not protect traffic
leaves the context alone and the frames unchanged (`Client.Passing`). `Client.no_downgrade` says so
of every call of every run.
-/

set_option autoImplicit false

namespace PeerLink.Gssapi.Client

open Mechanism (Call Answer)

variable {σ : Type} {c c' : Client σ} {call : Call} {answer : Answer} {made : List ContextCall}
  {f m : Frame}

/-- A call whose output and input both pass through the context. `own` is what the client
announces. -/
structure Protecting (own : Announcement) (c : Client σ) (call : Call) : Prop where
  /-- Protection always includes encryption. -/
  wraps : ∀ {plaintext : Bytes} {confidential : Bool} {answer : Except LibraryFailure Bytes},
    .wrap plaintext confidential answer ∈ c.consulted call → confidential = true
  /-- A command sent is an INITIATE command or the protected READY of the client. -/
  sends : ∀ {f : Frame}, call = .next → (c.step call).1 = .frame f →
    (∃ token, token.length < Bytes.wordLimit ∧
      f = .ofCommand (framed Command.initiate token)) ∨
    ∃ ready token, own.command Command.ready = .ok ready ∧
      .wrap (ready.flags :: ready.data) true (.ok token) ∈ c.consulted call ∧
      f = .ofParts (framed Command.message token) ready.flags
  /-- An outbound frame leaves as the token that it was protected as. -/
  encodes : ∀ {m f : Frame}, call = .encode m → (c.step call).1 = .frame f →
    ∃ token, c.consulted call = [.wrap (m.flags :: m.data) true (.ok token)] ∧
      f = .ofParts (framed Command.message token) m.flags
  /-- The handshake ends with an encrypted READY of the server. -/
  connects : c.phase ≠ .connected → (c.step call).2.phase = .connected →
    ∃ f token flags payload body, call = .process f ∧
      f.data = framed Command.message token ∧ token.length < Bytes.wordLimit ∧
      c.consulted call = [.unwrap token (.ok ⟨flags :: payload, true⟩)] ∧
      payload = Command.ready ++ body
  /-- An inbound frame is what an encrypted token held. -/
  decodes : ∀ {m f : Frame}, call = .decode m → (c.step call).1 = .frame f →
    ∃ token flags payload, m.data = framed Command.message token ∧
      token.length < Bytes.wordLimit ∧
      c.consulted call = [.unwrap token (.ok ⟨flags :: payload, true⟩)] ∧
      f = .ofParts payload flags

/-- A call that leaves protection alone and traffic unchanged. -/
structure Passing (c : Client σ) (call : Call) : Prop where
  calls : ∀ made ∈ c.consulted call, ∃ request answer, made = .init request answer
  encodes : ∀ {m f : Frame}, call = .encode m → (c.step call).1 = .frame f → f = m
  decodes : ∀ {m f : Frame}, call = .decode m → (c.step call).1 = .frame f → f = m

/-! ## What the parts of a call do -/

section Parts

variable {plaintext : Bytes} {confidential : Bool} {wrapped : Except LibraryFailure Bytes}

theorem Transforms.confidential_eq {context : SecurityContext σ} {state next : σ}
    {result : Except Fault Frame} (h : Transforms context call state result made next)
    (hmem : .wrap plaintext confidential wrapped ∈ made) : confidential = true := by
  cases h <;> simp_all

theorem Loaded.not_wrap_mem (h : Loaded c made c') :
    .wrap plaintext confidential wrapped ∉ made := by
  cases h <;> simp

theorem Announces.confidential_eq (h : Announces c answer made c')
    (hmem : .wrap plaintext confidential wrapped ∈ made) : confidential = true := by
  cases h with
  | unwritable _ | bare _ _ => cases hmem
  | wrapped _ _ ht | unwrappable _ _ ht => exact ht.confidential_eq hmem

theorem Reads.confidential_eq {result : Except Fault Frame} {session : σ}
    (h : Reads c f result made session) (hmem : .wrap plaintext confidential wrapped ∈ made) :
    confidential = true := by
  cases h with
  | bare _ | unprotected _ _ => cases hmem
  | recovered _ _ ht => exact ht.confidential_eq hmem

/-- A protected frame is the token that it was wrapped as. -/
theorem Transforms.exists_wrap {context : SecurityContext σ} {state next : σ} {out : Frame}
    (h : Transforms context (.encode f) state (.ok out) made next) :
    ∃ token, made = [.wrap (f.flags :: f.data) true (.ok token)] ∧
      out = .ofParts (framed Command.message token) f.flags := by
  generalize hresult : (Except.ok out : Except Fault Frame) = result at h
  cases h with
  | protect _ =>
    obtain ⟨token, rfl, -, rfl⟩ := sealed_eq_ok_iff.1 hresult.symm
    exact ⟨token, rfl, rfl⟩

/-- A recovered frame is what an encrypted token held. -/
theorem Transforms.exists_unwrap {context : SecurityContext σ} {state next : σ} {out : Frame}
    (h : Transforms context (.decode f) state (.ok out) made next) :
    ∃ token flags payload, f.data = framed Command.message token ∧
      token.length < Bytes.wordLimit ∧ made = [.unwrap token (.ok ⟨flags :: payload, true⟩)] ∧
      out = .ofParts payload flags := by
  generalize hresult : (Except.ok out : Except Fault Frame) = result at h
  cases h with
  | misframed _ => cases hresult
  | @recover _ _ _ token _ hread _ =>
    obtain ⟨flags, payload, rfl, rfl⟩ := opened_eq_ok_iff.1 hresult.symm
    obtain ⟨hdata, hlen⟩ := readToken?_eq_some_iff.1 hread
    exact ⟨token, flags, payload, hdata, hlen, rfl, rfl⟩

/-- Where traffic is protected, READY goes out protected. -/
theorem Announces.exists_wrap (h : Announces c (.frame f) made c') (henc : c.encrypting = true) :
    ∃ ready token, c.announcement.command Command.ready = .ok ready ∧
      made = [.wrap (ready.flags :: ready.data) true (.ok token)] ∧
      f = .ofParts (framed Command.message token) ready.flags := by
  cases h with
  | bare _ hplain => cases henc.symm.trans hplain
  | @wrapped ready _ _ _ hcmd _ ht =>
    obtain ⟨token, hmade, hout⟩ := ht.exists_wrap
    exact ⟨ready, token, hcmd, hmade, hout⟩

/-- Where traffic is protected, READY comes in protected. -/
theorem Reads.exists_unwrap {ready : Frame} {session : σ}
    (h : Reads c f (.ok ready) made session) (henc : c.encrypting = true) :
    ∃ token flags payload, f.data = framed Command.message token ∧
      token.length < Bytes.wordLimit ∧ made = [.unwrap token (.ok ⟨flags :: payload, true⟩)] ∧
      ready = .ofParts payload flags := by
  cases h with
  | bare hplain => cases henc.symm.trans hplain
  | recovered _ _ ht => exact ht.exists_unwrap

/-- A command that is accepted as READY begins with that name. -/
theorem isNamed_of_judge {ready : Frame} {peer : Properties} (h : c.judge ready = .ok peer) :
    ready.isNamed Command.ready = true := by
  by_cases hname : ready.isNamed Command.ready = true
  · exact hname
  · rw [judge, if_neg hname] at h
    cases h

end Parts

/-! ## What a call does -/

section Calls

theorem ofFrame_eq_frame {result : Except Fault Frame} (h : Answer.ofFrame result = .frame f) :
    result = .ok f := by
  cases result with
  | error fault => cases h
  | ok out =>
    cases h
    rfl

/-- Whatever is protected is encrypted. -/
theorem Step.confidential_eq {plaintext : Bytes} {confidential : Bool}
    {wrapped : Except LibraryFailure Bytes} (hs : Step c call answer made c')
    (hmem : .wrap plaintext confidential wrapped ∈ made) : confidential = true := by
  cases hs with
  | handed _ _ hl _ _ | oversized _ _ hl _ _ => exact absurd hmem hl.not_wrap_mem
  | finished _ _ hl _ ha =>
    rcases List.mem_append.1 hmem with hmem | hmem
    · exact absurd hmem hl.not_wrap_mem
    · exact ha.confidential_eq hmem
  | announced _ _ ha => exact ha.confidential_eq hmem
  | readyUnreadable _ _ _ hr | readyRefused _ _ _ hr _ | readyTaken _ _ _ hr _ =>
    exact hr.confidential_eq hmem
  | transformed _ _ ht => exact ht.confidential_eq hmem
  | firstRefused _ _ _ _ _ | tokenRefused _ _ _ _ _ | tokenTaken _ _ _ _ _ =>
    rw [List.mem_singleton] at hmem
    cases hmem
  | _ => cases hmem

/-- Where traffic is protected, a command sent is an INITIATE command or a protected READY. -/
theorem Step.sends (hs : Step c .next answer made c') (henc : c.encrypting = true)
    (ha : answer = .frame f) :
    (∃ token, token.length < Bytes.wordLimit ∧
      f = .ofCommand (framed Command.initiate token)) ∨
    ∃ ready token, c.announcement.command Command.ready = .ok ready ∧
      .wrap (ready.flags :: ready.data) true (.ok token) ∈ made ∧
      f = .ofParts (framed Command.message token) ready.flags := by
  cases hs with
  | handed _ _ _ _ hlen =>
    cases ha
    exact .inl ⟨_, hlen, rfl⟩
  | finished _ _ hl _ hannounce =>
    -- READY follows a call of the context, which changes neither announcement nor mode
    subst ha
    have hfixed := hl.fixed
    obtain ⟨ready, token, hcmd, rfl, hf⟩ :=
      hannounce.exists_wrap (hfixed.encrypting.trans henc)
    refine .inr ⟨ready, token, ?_, List.mem_append_right _ List.mem_cons_self, hf⟩
    rw [← hfixed.announcement]
    exact hcmd
  | announced _ _ hannounce =>
    subst ha
    obtain ⟨ready, token, hcmd, rfl, hf⟩ := hannounce.exists_wrap henc
    exact .inr ⟨ready, token, hcmd, List.mem_cons_self, hf⟩
  | notReady hcall _ | passed hcall _ _ => rcases hcall with hcall | hcall <;> cases hcall
  | transformed _ _ ht => cases ht
  | _ => cases ha

/-- Where traffic is protected, a frame that leaves was wrapped. -/
theorem Step.encodes (hs : Step c (.encode m) answer made c') (henc : c.encrypting = true)
    (ha : answer = .frame f) :
    ∃ token, made = [.wrap (m.flags :: m.data) true (.ok token)] ∧
      f = .ofParts (framed Command.message token) m.flags := by
  cases hs with
  | notReady _ _ => cases ha
  | passed _ _ hplain => cases henc.symm.trans hplain
  | transformed _ _ ht =>
    -- the answer is a frame, so the protection succeeded
    rw [ofFrame_eq_frame ha] at ht
    exact ht.exists_wrap

/-- Where traffic is protected, a frame that comes in was unwrapped. -/
theorem Step.decodes (hs : Step c (.decode m) answer made c') (henc : c.encrypting = true)
    (ha : answer = .frame f) :
    ∃ token flags payload, m.data = framed Command.message token ∧
      token.length < Bytes.wordLimit ∧ made = [.unwrap token (.ok ⟨flags :: payload, true⟩)] ∧
      f = .ofParts payload flags := by
  cases hs with
  | notReady _ _ => cases ha
  | passed _ _ hplain => cases henc.symm.trans hplain
  | transformed _ _ ht =>
    rw [ofFrame_eq_frame ha] at ht
    exact ht.exists_unwrap

theorem Loaded.phase_eq (h : Loaded c made c') : c'.phase = c.phase := by
  cases h <;> rfl

theorem Announces.phase_ne_connected (h : Announces c answer made c')
    (hphase : c.phase ≠ .connected) : c'.phase ≠ .connected := by
  cases h with
  | unwritable _ | unwrappable _ _ _ => exact hphase
  | bare _ _ | wrapped _ _ _ => simp

/-- Only a server's READY connects. -/
theorem Step.exists_ready (hs : Step c call answer made c') (hphase : c.phase ≠ .connected)
    (hconnected : c'.phase = .connected) :
    ∃ f ready session, call = .process f ∧ Reads c f (.ok ready) made session ∧
      ready.isNamed Command.ready = true := by
  cases hs with
  | @readyTaken f ready _ _ session _ _ _ hr hj =>
    exact ⟨f, ready, session, rfl, hr, isNamed_of_judge hj⟩
  -- sending a token leads to READY or to the server's answer, taking one to READY or to sending
  | @handed loaded _ _ _ _ _ _ _ => cases he : loaded.established <;> simp [he] at hconnected
  | oversized _ _ hl _ _ => exact absurd (hl.phase_eq.symm.trans hconnected) hphase
  | @tokenTaken _ _ answer _ _ _ _ _ _ =>
    cases ht : answer.token? <;> simp [ht] at hconnected
  | finished _ _ _ _ ha => exact absurd hconnected (ha.phase_ne_connected (by simp))
  | announced _ _ ha => exact absurd hconnected (ha.phase_ne_connected hphase)
  | @transformed _ result _ _ _ _ _ => cases result <;> exact absurd hconnected hphase
  | _ => exact absurd hconnected hphase

/-- Looking at the slot calls the context for a token at most. -/
theorem Loaded.eq_init (h : Loaded c made c') :
    ∀ primitive ∈ made, ∃ request answer, primitive = .init request answer := by
  intro primitive hmem
  cases h with
  | held _ => cases hmem
  | fetched _ _ _ => exact ⟨_, _, List.mem_singleton.1 hmem⟩

theorem Announces.eq_nil (h : Announces c answer made c') (hplain : c.encrypting = false) :
    made = [] := by
  cases h with
  | unwritable _ | bare _ _ => rfl
  | wrapped _ henc _ | unwrappable _ henc _ => cases henc.symm.trans hplain

theorem Reads.eq_nil {result : Except Fault Frame} {session : σ}
    (h : Reads c f result made session) (hplain : c.encrypting = false) : made = [] := by
  cases h with
  | bare _ | unprotected _ _ => rfl
  | recovered henc _ _ => cases henc.symm.trans hplain

/-- Where traffic is not protected, the context is called for tokens only. -/
theorem Step.eq_init (hs : Step c call answer made c') (hplain : c.encrypting = false) :
    ∀ primitive ∈ made, ∃ request answer, primitive = .init request answer := by
  intro primitive hmem
  cases hs with
  | handed _ _ hl _ _ | oversized _ _ hl _ _ => exact hl.eq_init primitive hmem
  | finished _ _ hl _ ha =>
    -- READY goes out bare
    rw [ha.eq_nil (hl.fixed.encrypting.trans hplain), List.append_nil] at hmem
    exact hl.eq_init primitive hmem
  | announced _ _ ha =>
    rw [ha.eq_nil hplain] at hmem
    cases hmem
  | readyUnreadable _ _ _ hr | readyRefused _ _ _ hr _ | readyTaken _ _ _ hr _ =>
    rw [hr.eq_nil hplain] at hmem
    cases hmem
  | transformed _ henc _ => cases henc.symm.trans hplain
  | firstRefused _ _ _ _ _ | tokenRefused _ _ _ _ _ | tokenTaken _ _ _ _ _ =>
    exact ⟨_, _, List.mem_singleton.1 hmem⟩
  | _ => cases hmem

/-- Where traffic is not protected, it passes unchanged. -/
theorem Step.eq_argument (hs : Step c call answer made c') (hplain : c.encrypting = false)
    (hcall : call = .encode m ∨ call = .decode m) (ha : answer = .frame f) : f = m := by
  cases hs with
  | passed hpassed _ _ =>
    rcases hcall with rfl | rfl <;> rcases hpassed with heq | heq <;> cases heq <;> cases ha <;> rfl
  | transformed _ henc _ => cases henc.symm.trans hplain
  | notReady _ _ => cases ha
  | _ => rcases hcall with hcall | hcall <;> cases hcall

end Calls

/-! ## Whole clients -/

/-- Every call of a client that protects traffic protects whatever it lets through. -/
theorem protecting (henc : c.encrypting = true) (call : Call) :
    Protecting c.announcement c call where
  wraps hmem := (step_consulted c call).confidential_eq hmem
  sends hcall ha := by
    subst hcall
    exact (step_consulted c .next).sends henc ha
  encodes hcall ha := by
    subst hcall
    exact (step_consulted c _).encodes henc ha
  connects hphase hconnected := by
    -- the frame that connects was read as READY, hence recovered, and carries the name
    obtain ⟨f, ready, session, hcall, hr, hname⟩ :=
      (step_consulted c call).exists_ready hphase hconnected
    obtain ⟨token, flags, payload, hdata, hlen, hmade, rfl⟩ := hr.exists_unwrap henc
    obtain ⟨body, hbody⟩ := Frame.isNamed_iff.1 hname
    exact ⟨f, token, flags, payload, body, hcall, hdata, hlen, hmade, hbody⟩
  decodes hcall ha := by
    subst hcall
    exact (step_consulted c _).decodes henc ha

/-- Every call of a client that does not protect traffic passes it unchanged. -/
theorem passing (hplain : c.encrypting = false) (call : Call) : Passing c call where
  calls := (step_consulted c call).eq_init hplain
  encodes hcall ha := (step_consulted c call).eq_argument hplain (.inl hcall) ha
  decodes hcall ha := (step_consulted c call).eq_argument hplain (.inr hcall) ha

/-- A client is protecting in every call of every run unless its options ask for plaintext, and
passing if they do. -/
theorem no_downgrade {options : SecurityOptions} {context : SecurityContext σ} {session : σ}
    (h : Built options context session c) (calls : List Call) (call : Call) :
    (options.gssapi.plaintext = false →
      Protecting (.ofOptions options) (c.after calls) call) ∧
    (options.gssapi.plaintext = true → Passing (c.after calls) call) := by
  have hfixed := fixed_after c calls
  have henc : (c.after calls).encrypting = !options.gssapi.plaintext :=
    hfixed.encrypting.trans h.encrypting_eq
  constructor
  · intro hoption
    rw [hoption] at henc
    rw [← h.announcement_eq, ← hfixed.announcement]
    exact protecting henc call
  · intro hoption
    rw [hoption] at henc
    exact passing henc call

/-- The READY of a ROUTER socket as a sample client takes it in. -/
def sampleReady : Frame :=
  .ofCommand (framed Command.message (2 :: Command.ready ++
    (Announcement.ofOptions { socketType := .router }).properties.flatMap Property.encoded))

theorem no_downgrade_sample :
    Protecting (.ofOptions {})
      ((sample false [.ok (.complete [])]).after [.next]) (.process sampleReady) ∧
    ((sample false [.ok (.complete [])]).after [.next, .process sampleReady]).phase = .connected ∧
    Passing ((sample true [.ok (.complete [])]).after [.next]) (.encode (.application [1])) :=
  ⟨(no_downgrade (built_sample false _) [.next] _).1 rfl, by decide +kernel,
    (no_downgrade (built_sample true _) [.next] _).2 rfl⟩

end PeerLink.Gssapi.Client
