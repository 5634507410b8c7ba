import PeerLink.Proofs.Metadata.Interoperation
import PeerLink.Proofs.Null.Link

/-!
# Two NULL handshakes agree

The READY of each side is not sent, under way, or taken by the other side (`Delivery`), and this
holds of both directions after any moves (`NullLink.Delivers.run`). A side that calls for a command
has sent its READY (`NullLink.Delivers.mem_sent_run`). So two sides whose socket types may talk and
whose names can be told apart agree, in whatever order they send and receive (`NullLink.agreement`).
-/

set_option autoImplicit false

namespace PeerLink

open Mechanism (Call Answer)

/-! ## One side -/

namespace NullHandshake

variable {h : NullHandshake} {f : Frame} {block : Bytes}

theorem step_next_of_sent (hsent : h.sent = true) : h.step .next = (.nothing, h) := by
  rw [step, next, if_pos (.inl hsent)]
  rfl

theorem step_next_of_unsent (hsent : h.sent = false) (hreply : h.reply ≠ .failed)
    (hcmd : h.announcement.command Command.ready = .ok f) :
    h.step .next = (.frame f, { h with sent := true }) := by
  rw [step, next, if_neg (by simp [hsent, hreply]), hcmd]
  rfl

theorem step_next_of_unwritable {fault : Fault} (hsent : h.sent = false)
    (hreply : h.reply ≠ .failed) (hcmd : h.announcement.command Command.ready = .error fault) :
    h.step .next = (.failed fault, h) := by
  rw [step, next, if_neg (by simp [hsent, hreply]), hcmd]
  rfl

/-- READY is out after a call for a command, if it can be written. -/
theorem sent_step_next (hreply : h.reply ≠ .failed)
    (hcmd : h.announcement.command Command.ready = .ok f) : (h.step .next).2.sent = true := by
  cases hsent : h.sent with
  | true =>
    rw [step_next_of_sent hsent]
    exact hsent
  | false => rw [step_next_of_unsent hsent hreply hcmd]

/-- The first READY is taken if its block is accepted. -/
theorem step_process_ready {peer : Properties} (hreply : h.reply = .awaited)
    (hdata : f.data = Command.ready ++ block) (haccept : h.announcement.accept block = .ok peer) :
    h.step (.process f) = (.done, { h with reply := .ready peer }) := by
  have hname : f.isNamed Command.ready = true := Frame.isNamed_iff.2 ⟨block, hdata⟩
  have hdrop : f.data.drop Command.ready.length = block := by rw [hdata, List.drop_left]
  rw [step, process, hreply]
  dsimp only
  rw [Command.checkStructure_of_ready hdata]
  dsimp only
  rw [if_pos hname, hdrop, haccept]
  rfl

end NullHandshake

/-! ## One direction -/

/-- The READY of a side that announces `own` on its way to the other side: whether it was sent, what
is under way, what the other side knows, and the frames that were put under way and taken in. -/
inductive Delivery (own : Announcement) :
    Bool → List Frame → PeerReply → List Frame → List Frame → Prop
  | unsent : Delivery own false [] .awaited [] []
  | underway : (∀ p ∈ own.properties, p.Fits) →
      Delivery own true [own.written Command.ready] .awaited [own.written Command.ready] []
  | taken {peer : Properties} : peer.entries = own.properties →
      Delivery own true [] (.ready peer) [own.written Command.ready] [own.written Command.ready]

namespace Delivery

variable {own : Announcement} {sent : Bool} {queue out received : List Frame} {reply : PeerReply}

theorem reply_ne_failed (h : Delivery own sent queue reply out received) : reply ≠ .failed := by
  cases h <;> simp

/-- READY is put under way once, if at all. -/
theorem out_eq (h : Delivery own sent queue reply out received) :
    out = if sent then [own.written Command.ready] else [] := by
  cases h <;> rfl

/-- The frames under way are those that were put under way and not taken yet. -/
theorem out_eq_append (h : Delivery own sent queue reply out received) :
    out = received ++ queue := by
  cases h <;> rfl

/-- The other side has a reply when it has taken READY, and it knows what READY announces. -/
theorem reply_eq (h : Delivery own sent queue reply out received) :
    (own.written Command.ready ∈ received ∧
      ∃ peer : Properties, reply = .ready peer ∧ peer.entries = own.properties) ∨
    (own.written Command.ready ∉ received ∧ reply = .awaited) := by
  cases h with
  | unsent => exact .inr ⟨List.not_mem_nil, rfl⟩
  | underway => exact .inr ⟨List.not_mem_nil, rfl⟩
  | taken hpeer => exact .inl ⟨List.mem_singleton_self _, _, rfl, hpeer⟩

/-- A READY that was not sent may be, if it can be written. -/
theorem send (h : Delivery own false queue reply out received)
    (hfits : ∀ p ∈ own.properties, p.Fits) :
    Delivery own true (queue ++ [own.written Command.ready]) reply
      (out ++ [own.written Command.ready]) received := by
  cases h
  exact .underway hfits

/-- What is under way is a READY that could be written, and the other side awaits it. -/
theorem of_cons {f : Frame} {rest : List Frame}
    (h : Delivery own sent (f :: rest) reply out received) :
    f = own.written Command.ready ∧ reply = .awaited ∧ (∀ p ∈ own.properties, p.Fits) := by
  cases h with
  | underway hfits => exact ⟨rfl, rfl, hfits⟩

/-- The side that takes what is under way knows what the other announces. -/
theorem take {f : Frame} {rest : List Frame} {peer : Properties}
    (h : Delivery own sent (f :: rest) reply out received)
    (hpeer : peer.entries = own.properties) :
    Delivery own sent rest (.ready peer) out (received ++ [f]) := by
  cases h
  exact .taken hpeer

end Delivery

/-! ## Both directions -/

namespace NullLink

variable {own : Side → Announcement} {events : List LinkEvent} {l : NullLink} {s : Side}

theorem sent_append (s : Side) (events more : List LinkEvent) :
    sent s (events ++ more) = sent s events ++ sent s more :=
  List.filterMap_append ..

@[simp] theorem sent_concat (s : Side) (events : List LinkEvent) (e : LinkEvent) :
    sent s (events ++ [e]) = sent s events ++ if e.side = s then e.sent?.toList else [] := by
  rw [sent_append]
  by_cases hside : e.side = s <;> cases hframe : e.sent? <;> simp [sent, hside, hframe]

@[simp] theorem taken_concat (s : Side) (events : List LinkEvent) (e : LinkEvent) :
    taken s (events ++ [e]) = taken s events ++ if e.side = s then e.taken?.toList else [] := by
  rw [taken, taken, List.filterMap_append]
  by_cases hside : e.side = s <;> cases hframe : e.taken? <;> simp [hside, hframe]

/-- After events, the READY of each side is on its way to the other. -/
structure Delivers (own : Side → Announcement) (events : List LinkEvent) (l : NullLink) : Prop where
  announcement : ∀ s, (l.handshake s).announcement = own s
  delivery : ∀ s, Delivery (own s) (l.handshake s).sent (l.inbox s.other)
    (l.handshake s.other).reply (sent s events) (taken s.other events)

/-- What is on its way to a side. -/
theorem Delivers.incoming (h : Delivers own events l) (s : Side) :
    Delivery (own s.other) (l.handshake s.other).sent (l.inbox s) (l.handshake s).reply
      (sent s.other events) (taken s events) := by
  have hdelivery := h.delivery s.other
  rwa [Side.other_other] at hdelivery

theorem Delivers.start (options : Side → SecurityOptions) :
    Delivers (fun s => .ofOptions (options s)) [] (start options) where
  announcement _ := rfl
  delivery _ := .unsent

/-- A call that neither sends nor takes leaves the deliveries where they are. -/
theorem Delivers.idle (h : Delivers own events l) {e : LinkEvent} (hsent : e.sent? = none)
    (htaken : e.taken? = none) : Delivers own (events ++ [e]) l where
  announcement := h.announcement
  delivery t := by simpa [hsent, htaken] using h.delivery t

theorem sending_self {answer : Answer} (hanswer : ∀ f, answer ≠ .frame f) :
    l.sending s (answer, l.handshake s) = l := by
  rw [sending, Function.update_eq_self]
  cases answer with
  | frame f => exact absurd rfl (hanswer f)
  | nothing | done | failed fault => rfl

/-- A side that sends its READY puts it under way. -/
theorem Delivers.sending (h : Delivers own events l) (hsent : (l.handshake s).sent = false)
    (hfits : ∀ p ∈ (own s).properties, p.Fits) :
    Delivers own (events ++ [⟨s, .next, .frame ((own s).written Command.ready)⟩])
      (l.sending s (.frame ((own s).written Command.ready),
        { l.handshake s with sent := true })) where
  announcement t := by
    rcases Side.eq_or_eq_other s t with rfl | rfl
    · simpa [NullLink.sending] using h.announcement t
    · simpa [NullLink.sending] using h.announcement s.other
  delivery t := by
    rcases Side.eq_or_eq_other s t with rfl | rfl
    · have hdelivery := h.delivery t
      rw [hsent] at hdelivery
      simpa [NullLink.sending, LinkEvent.sent?, LinkEvent.taken?] using hdelivery.send hfits
    · simpa [NullLink.sending, LinkEvent.sent?, LinkEvent.taken?] using h.delivery s.other

/-- A side that takes the other's READY knows what the other announces. -/
theorem Delivers.receiving (h : Delivers own events l) {f : Frame} {rest : List Frame}
    (hinbox : l.inbox s = f :: rest) {peer : Properties}
    (hpeer : peer.entries = (own s.other).properties) :
    Delivers own (events ++ [⟨s, .process f, .done⟩])
      (l.receiving s rest (.done, { l.handshake s with reply := .ready peer })) where
  announcement t := by
    rcases Side.eq_or_eq_other s t with rfl | rfl
    · simpa [NullLink.receiving] using h.announcement t
    · simpa [NullLink.receiving] using h.announcement s.other
  delivery t := by
    rcases Side.eq_or_eq_other s t with rfl | rfl
    · simpa [NullLink.receiving, LinkEvent.sent?, LinkEvent.taken?] using h.delivery t
    · have hincoming := h.incoming s
      rw [hinbox] at hincoming
      simpa [NullLink.receiving, LinkEvent.sent?, LinkEvent.taken?] using hincoming.take hpeer

/-! ## Moves -/

variable {options : Side → SecurityOptions}

/-- What a side announces. -/
abbrev announced (options : Side → SecurityOptions) (s : Side) : Announcement :=
  .ofOptions (options s)

/-- Two sides whose socket types may talk and whose names fit and differ by more than ASCII case. -/
structure Suited (options : Side → SecurityOptions) : Prop where
  compatible : ∀ s, (options s).socketType.isCompatible (options s.other).socketType.name = true
  names : ∀ s, ∀ p ∈ (announced options s).properties, p.name.utf8ByteSize ≤ 255
  apart : ∀ s, (announced options s).properties.Pairwise Properties.Apart

/-- A call does not fail, except that a value of 4 GiB or more keeps its side from writing READY. -/
def Harmless (options : Side → SecurityOptions) (e : LinkEvent) : Prop :=
  ∀ fault, e.answer = .failed fault → e.call = .next ∧ ∃ p ∈ (announced options e.side).properties,
    Bytes.wordLimit ≤ p.value.length ∧ fault = .malformed (.longPropertyValue p.value.length)

/-- After further events the READY of each side is still on its way, and these are harmless. -/
def Proceeds (options : Side → SecurityOptions) (events : List LinkEvent)
    (result : List LinkEvent × NullLink) : Prop :=
  Delivers (announced options) (events ++ result.1) result.2 ∧ ∀ e ∈ result.1, Harmless options e

theorem Delivers.send (h : Delivers (announced options) events l) (hsuited : Suited options)
    (s : Side) : Proceeds options events (l.step (.send s)) := by
  have hreply := (h.incoming s).reply_ne_failed
  obtain ⟨hwritten, hlong⟩ :=
    @Announcement.command_of_names _ Command.ready (hsuited.names s)
  rw [step]
  cases hsent : (l.handshake s).sent with
  | true =>
    rw [NullHandshake.step_next_of_sent hsent, sending_self (by simp)]
    exact ⟨h.idle rfl rfl, by simp [Harmless]⟩
  | false =>
    by_cases hvalues : ∀ p ∈ (announced options s).properties, p.value.length < Bytes.wordLimit
    · -- READY goes under way
      have hcommand : (l.handshake s).announcement.command Command.ready =
          .ok ((announced options s).written Command.ready) := by
        rw [h.announcement s]
        exact hwritten hvalues
      rw [NullHandshake.step_next_of_unsent hsent hreply hcommand]
      have hfits : ∀ p ∈ (announced options s).properties, p.Fits :=
        fun p hp => ⟨hsuited.names s p hp, hvalues p hp⟩
      exact ⟨h.sending hsent hfits, by simp [Harmless]⟩
    · -- no READY can be written
      obtain ⟨p, hp, hvalue, hcommand⟩ := hlong hvalues
      rw [← h.announcement s] at hcommand
      rw [NullHandshake.step_next_of_unwritable hsent hreply hcommand, sending_self (by simp)]
      refine ⟨h.idle rfl rfl, List.forall_mem_singleton.2 fun fault hfault => ?_⟩
      cases hfault
      exact ⟨rfl, p, hp, hvalue, rfl⟩

theorem Delivers.receive (h : Delivers (announced options) events l) (hsuited : Suited options)
    (s : Side) : Proceeds options events (l.step (.receive s)) := by
  rw [step]
  cases hinbox : l.inbox s with
  | nil =>
    refine ⟨?_, by simp⟩
    rw [List.append_nil]
    exact h
  | cons f rest =>
    have hincoming := h.incoming s
    rw [hinbox] at hincoming
    obtain ⟨rfl, hreply, hfits⟩ := hincoming.of_cons
    obtain ⟨haccepted, -⟩ := Announcement.accept_eq (hsuited.compatible s) hfits
    obtain ⟨peer, haccept, hpeer⟩ := haccepted (hsuited.apart s.other)
    rw [← announced, ← h.announcement s] at haccept
    dsimp only
    rw [NullHandshake.step_process_ready hreply rfl haccept]
    exact ⟨h.receiving hinbox hpeer, by simp [Harmless]⟩

theorem Delivers.step (h : Delivers (announced options) events l) (hsuited : Suited options)
    (move : Move) : Proceeds options events (l.step move) := by
  cases move with
  | send s => exact h.send hsuited s
  | receive s => exact h.receive hsuited s

/-- The deliveries go on through moves in any order. -/
theorem Delivers.run (h : Delivers (announced options) events l) (hsuited : Suited options)
    (moves : List Move) : Proceeds options events (l.run moves) := by
  induction moves generalizing events l with
  | nil =>
    refine ⟨?_, by simp [NullLink.run]⟩
    rw [NullLink.run, List.append_nil]
    exact h
  | cons move moves ih =>
    obtain ⟨hstep, hharmless⟩ := h.step hsuited move
    obtain ⟨hrun, hmore⟩ := ih hstep
    rw [List.append_assoc] at hrun
    exact ⟨hrun, List.forall_mem_append.2 ⟨hharmless, hmore⟩⟩

/-- A side that calls for a command has sent its READY, if that can be written. -/
theorem Delivers.mem_sent (h : Delivers (announced options) events l) (hsuited : Suited options)
    (hvalues : ∀ p ∈ (announced options s).properties, p.value.length < Bytes.wordLimit) :
    (announced options s).written Command.ready ∈ sent s (events ++ (l.step (.send s)).1) := by
  obtain ⟨hwritten, -⟩ := @Announcement.command_of_names _ Command.ready (hsuited.names s)
  have hcommand := hwritten hvalues
  rw [← h.announcement s] at hcommand
  have hsent := NullHandshake.sent_step_next (h.incoming s).reply_ne_failed hcommand
  rw [((h.send hsuited s).1.delivery s).out_eq]
  simpa [NullLink.step, NullLink.sending] using hsent

/-- The READY of a side is sent after any moves in which the side calls for a command. -/
theorem Delivers.mem_sent_run (h : Delivers (announced options) events l) (hsuited : Suited options)
    (hvalues : ∀ p ∈ (announced options s).properties, p.value.length < Bytes.wordLimit)
    {moves : List Move} (hmove : .send s ∈ moves) :
    (announced options s).written Command.ready ∈ sent s (events ++ (l.run moves).1) := by
  induction moves generalizing events l with
  | nil => cases hmove
  | cons move moves ih =>
    have hsplit : events ++ (l.run (move :: moves)).1 =
        events ++ (l.step move).1 ++ ((l.step move).2.run moves).1 :=
      (List.append_assoc ..).symm
    rw [hsplit]
    rcases List.mem_cons.1 hmove with rfl | hmove
    · -- what was sent stays sent
      rw [sent_append]
      exact List.mem_append_left _ (h.mem_sent hsuited hvalues)
    · exact ih (h.step hsuited move).1 hmove

/-! ## Agreement -/

/-- A side is done once it has sent its READY and taken the other's. -/
theorem Delivers.status_eq (h : Delivers own events l) (s : Side) : (l.handshake s).status =
    if (own s).written Command.ready ∈ sent s events ∧
      (own s.other).written Command.ready ∈ taken s events then .ready else .handshaking := by
  rw [(h.delivery s).out_eq, NullHandshake.status]
  rcases (h.incoming s).reply_eq with ⟨htaken, peer, hready, -⟩ | ⟨htaken, hawaited⟩
  · rw [hready]
    cases (l.handshake s).sent <;> simp [htaken]
  · simp [hawaited, htaken]

/-- A side that has taken the other's READY knows what the other announces. -/
theorem Delivers.peer_eq (h : Delivers own events l)
    (htaken : (own s.other).written Command.ready ∈ taken s events) :
    (l.handshake s).peerProperties.entries = (own s.other).properties := by
  rcases (h.incoming s).reply_eq with ⟨-, peer, hready, hpeer⟩ | ⟨hnot, -⟩
  · rw [NullHandshake.peerProperties, hready]
    exact hpeer
  · exact absurd htaken hnot

/-- Two sides agree after moves with events: what was sent, how far each side has come, and what it
knows of the other. That no call fails, and that a side which calls for a command sends its READY,
is on the condition that the property values are shorter than `Bytes.wordLimit`, that is 4 GiB,
since a length field cannot hold more. A longer value keeps its side from sending READY
(`Harmless`). All else holds whatever the values are. -/
structure Agrees (options : Side → SecurityOptions) (moves : List Move) (events : List LinkEvent)
    (l : NullLink) : Prop where
  harmless : ∀ e ∈ events, Harmless options e
  unfailing : (∀ s, ∀ p ∈ (announced options s).properties, p.value.length < Bytes.wordLimit) →
    ∀ e ∈ events, ∀ fault, e.answer ≠ .failed fault
  /-- A side that calls for a command sends its READY. -/
  sends : ∀ s, (∀ p ∈ (announced options s).properties, p.value.length < Bytes.wordLimit) →
    .send s ∈ moves → (announced options s).written Command.ready ∈ sent s events
  sent_once : ∀ s, sent s events = [] ∨
    sent s events = [(announced options s).written Command.ready]
  /-- Every frame that left its queue was taken in. -/
  delivered : ∀ s, sent s events = taken s.other events ++ l.inbox s.other
  status : ∀ s, (l.handshake s).status =
    if (announced options s).written Command.ready ∈ sent s events ∧
      (announced options s.other).written Command.ready ∈ taken s events then .ready
    else .handshaking
  peer : ∀ s, (announced options s.other).written Command.ready ∈ taken s events →
    (l.handshake s).peerProperties.entries = (announced options s.other).properties

/-- Two suited sides agree after moves in any order. `Suited` does not bound the property values:
where they are below 4 GiB, as their length fields ask, no call fails and every side that calls for
a command sends its READY; where one is not, its side fails for just this reason. -/
theorem agreement (hsuited : Suited options) (moves : List Move) :
    Agrees options moves ((start options).run moves).1 ((start options).run moves).2 := by
  obtain ⟨hdelivers, hharmless⟩ := (Delivers.start options).run hsuited moves
  rw [List.nil_append] at hdelivers
  exact {
    harmless := hharmless
    unfailing := by
      intro hvalues e he fault hfault
      obtain ⟨-, p, hp, hlong, -⟩ := hharmless e he fault hfault
      exact absurd (hvalues e.side p hp) (Nat.not_lt.2 hlong)
    sends := by
      intro s hvalues hmove
      have hsent := (Delivers.start options).mem_sent_run hsuited hvalues hmove
      rwa [List.nil_append] at hsent
    sent_once := by
      intro s
      rw [(hdelivers.delivery s).out_eq]
      cases (((start options).run moves).2.handshake s).sent with
      | true => exact .inr rfl
      | false => exact .inl rfl
    delivered := fun s => (hdelivers.delivery s).out_eq_append
    status := hdelivers.status_eq
    peer := fun s => hdelivers.peer_eq }

/-- A DEALER with a routing id and metadata, and a ROUTER. -/
def dealerRouter : Side → SecurityOptions
  | .left => { socketType := .dealer, routingId := some "d", metadata := .ofList [("X-A", "1")] }
  | .right => { socketType := .router }

/-- The DEALER takes the READY of the ROUTER before it sends its own. -/
theorem agreement_dealerRouter :
    let moves := [.send .right, .receive .left, .send .left, .receive .right]
    Suited dealerRouter ∧
      Agrees dealerRouter moves ((start dealerRouter).run moves).1
        ((start dealerRouter).run moves).2 ∧
      ∀ s, (((start dealerRouter).run moves).2.handshake s).status = .ready := by
  intro moves
  have hsuited : Suited dealerRouter := by
    constructor <;> intro s <;> cases s <;> decide
  refine ⟨hsuited, agreement hsuited moves, fun s => ?_⟩
  cases s <;> decide +kernel

end NullLink

end PeerLink
