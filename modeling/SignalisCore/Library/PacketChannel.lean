import Mathlib.Data.List.Basic

/-!
# A sender, a receiver, and a network between them

A channel is two functions that know nothing of each other: one makes packets and one opens them.
The network between them delivers packets in any order, as often as it likes or never, and packets
of its own.

* `run_safe`: what every run keeps, step by step.
* `Channel.Works.reliable`: if the two functions fit together, what can be sent is sent and arrives
  whenever it is delivered, and nothing else is accepted.
-/

namespace PacketChannel

/-- The two functions. -/
structure Channel (Input Body Packet Refusal : Type*) where
  /-- The part of the input that is to arrive. -/
  body : Input → Body
  /-- The sender. -/
  send : Input → Except Refusal Packet
  /-- The receiver. -/
  receive : Packet → Except Refusal Body

/-- What happens next. -/
inductive Event (Input Packet : Type*)
  /-- The sender is called. -/
  | send (input : Input)
  /-- The network delivers the packet that was sent as number `i`. -/
  | deliver (i : ℕ)
  /-- The network delivers a packet of its own. -/
  | inject (packet : Packet)

/-- The history of a channel. -/
structure State (Input Body Packet Refusal : Type*) where
  /-- The inputs for which there was a packet, and the packets. -/
  sent : List (Input × Packet)
  /-- The packets that arrived, and what the receiver returned for them. -/
  received : List (Packet × Except Refusal Body)

variable {Input Body Packet Refusal : Type*} (ch : Channel Input Body Packet Refusal)

/-- One event. -/
def step (s : State Input Body Packet Refusal) :
    Event Input Packet → State Input Body Packet Refusal
  | .send input =>
    match ch.send input with
    | .ok packet => { s with sent := s.sent ++ [(input, packet)] }
    | .error _ => s
  | .deliver i =>
    match s.sent[i]? with
    | some m => { s with received := s.received ++ [(m.2, ch.receive m.2)] }
    | none => s
  | .inject packet => { s with received := s.received ++ [(packet, ch.receive packet)] }

/-- A run from the beginning. -/
def run (events : List (Event Input Packet)) : State Input Body Packet Refusal :=
  events.foldl (step ch) ⟨[], []⟩

/-! ### What a run keeps -/

/-- The histories tell the truth. -/
structure Safe (s : State Input Body Packet Refusal) : Prop where
  sent : ∀ m ∈ s.sent, ch.send m.1 = .ok m.2
  received : ∀ r ∈ s.received, r.2 = ch.receive r.1

variable {ch}

theorem step_safe {s : State Input Body Packet Refusal} (h : Safe ch s)
    (event : Event Input Packet) : Safe ch (step ch s event) := by
  cases event with
  | send input =>
    rcases h_send : ch.send input with e | packet
    · simp only [step, h_send]
      exact h
    · simp only [step, h_send]
      refine ⟨fun m h_m => ?_, h.received⟩
      obtain h_m | h_m := List.mem_append.mp h_m
      · exact h.sent m h_m
      · obtain rfl := List.mem_singleton.mp h_m
        exact h_send
  | deliver i =>
    rcases h_get : s.sent[i]? with _ | m
    · simp only [step, h_get]
      exact h
    · simp only [step, h_get]
      refine ⟨h.sent, fun r h_r => ?_⟩
      obtain h_r | h_r := List.mem_append.mp h_r
      · exact h.received r h_r
      · obtain rfl := List.mem_singleton.mp h_r
        rfl
  | inject packet =>
    refine ⟨h.sent, fun r h_r => ?_⟩
    obtain h_r | h_r := List.mem_append.mp h_r
    · exact h.received r h_r
    · obtain rfl := List.mem_singleton.mp h_r
      rfl

theorem foldl_step_safe {s : State Input Body Packet Refusal} (h : Safe ch s)
    (events : List (Event Input Packet)) : Safe ch (events.foldl (step ch) s) := by
  induction events generalizing s with
  | nil => exact h
  | cons event events ih => exact ih (step_safe h event)

/-- **Every run is safe.** -/
theorem run_safe (events : List (Event Input Packet)) : Safe ch (run ch events) :=
  foldl_step_safe ⟨by simp, by simp⟩ events

/-! ### What was sent stays sent -/

theorem sent_prefix_step (s : State Input Body Packet Refusal) (event : Event Input Packet) :
    s.sent <+: (step ch s event).sent := by
  cases event with
  | send input =>
    rcases h_send : ch.send input with e | packet
    · simp only [step, h_send]
      exact List.prefix_rfl
    · simp only [step, h_send]
      exact List.prefix_append _ _
  | deliver i =>
    rcases h_get : s.sent[i]? with _ | m
    · simp only [step, h_get]
      exact List.prefix_rfl
    · simp only [step, h_get]
      exact List.prefix_rfl
  | inject packet => exact List.prefix_rfl

theorem sent_prefix_foldl (s : State Input Body Packet Refusal)
    (events : List (Event Input Packet)) : s.sent <+: (events.foldl (step ch) s).sent := by
  induction events generalizing s with
  | nil => exact List.prefix_rfl
  | cons event events ih => exact (sent_prefix_step s event).trans (ih _)

theorem run_append (events later : List (Event Input Packet)) :
    run ch (events ++ later) = later.foldl (step ch) (run ch events) := List.foldl_append

/-! ### Channels that work -/

variable (ch)

/-- The sender makes packets, and the receiver opens what the sender makes and nothing else, as far
as the two conditions go. -/
structure Channel.Works (Sendable : Input → Prop) (Within : Body → Packet → Prop) : Prop where
  exists_send : ∀ {input}, Sendable input → ∃ packet, ch.send input = .ok packet
  receive_of_send : ∀ {input packet}, ch.send input = .ok packet →
    ch.receive packet = .ok (ch.body input)
  send_of_receive : ∀ {packet body}, ch.receive packet = .ok body → Within body packet →
    ∃ input, ch.body input = body ∧ ch.send input = .ok packet

variable {ch} {Sendable : Input → Prop} {Within : Body → Packet → Prop}

/-- **What a channel that works guarantees** over every run. -/
structure Reliable (ch : Channel Input Body Packet Refusal) (Sendable : Input → Prop)
    (Within : Body → Packet → Prop) : Prop where
  /-- Whatever has happened, there is a packet for an input that can be sent. -/
  send : ∀ (events : List (Event Input Packet)) (input : Input), Sendable input →
    ∃ packet, (run ch (events ++ [.send input])).sent = (run ch events).sent ++ [(input, packet)]
  /-- Whatever has happened since a packet was sent, delivering it gives the receiver its body. -/
  deliver : ∀ (events later : List (Event Input Packet)) (i : ℕ) (m : Input × Packet),
    (run ch events).sent[i]? = some m →
      (run ch (events ++ later ++ [.deliver i])).received =
        (run ch (events ++ later)).received ++ [(m.2, .ok (ch.body m.1))]
  /-- A packet that was sent is never refused, however it came. -/
  honest : ∀ (events : List (Event Input Packet)), ∀ r ∈ (run ch events).received,
    ∀ m ∈ (run ch events).sent, r.1 = m.2 → r.2 = .ok (ch.body m.1)
  /-- Nothing is accepted that the sender could not have sent. -/
  genuine : ∀ (events : List (Event Input Packet)), ∀ r ∈ (run ch events).received,
    ∀ body, r.2 = .ok body → Within body r.1 →
      ∃ input, ch.body input = body ∧ ch.send input = .ok r.1

theorem sent_send (h : ch.Works Sendable Within) (events : List (Event Input Packet))
    {input : Input} (h_input : Sendable input) :
    ∃ packet,
      (run ch (events ++ [.send input])).sent = (run ch events).sent ++ [(input, packet)] := by
  obtain ⟨packet, h_packet⟩ := h.exists_send h_input
  refine ⟨packet, ?_⟩
  rw [run_append, List.foldl_cons, List.foldl_nil, step, h_packet]

theorem received_deliver (h : ch.Works Sendable Within) (events later : List (Event Input Packet))
    {i : ℕ} {m : Input × Packet} (h_m : (run ch events).sent[i]? = some m) :
    (run ch (events ++ later ++ [.deliver i])).received =
      (run ch (events ++ later)).received ++ [(m.2, .ok (ch.body m.1))] := by
  have h_later : (run ch (events ++ later)).sent[i]? = some m := by
    obtain ⟨rest, h_rest⟩ := sent_prefix_foldl (run ch events) later
    obtain ⟨h_lt, -⟩ := List.getElem?_eq_some_iff.mp h_m
    rw [run_append, ← h_rest, List.getElem?_append_left h_lt, h_m]
  have h_open : ch.receive m.2 = .ok (ch.body m.1) :=
    h.receive_of_send ((run_safe events).sent m (List.mem_of_getElem? h_m))
  rw [run_append, List.foldl_cons, List.foldl_nil, step, h_later]
  simp only [h_open]

/-- **A channel that works is reliable.** -/
theorem Channel.Works.reliable (h : ch.Works Sendable Within) : Reliable ch Sendable Within where
  send events _ h_input := sent_send h events h_input
  deliver events later i m h_m := received_deliver h events later h_m
  honest events r h_r m h_m h_eq := by
    rw [(run_safe events).received r h_r, h_eq]
    exact h.receive_of_send ((run_safe events).sent m h_m)
  genuine events r h_r body h_body h_within := by
    rw [(run_safe events).received r h_r] at h_body
    exact h.send_of_receive h_body h_within

end PacketChannel
