import Mathlib.Logic.Function.Basic
import StaticLog.Foundation.Channel

/-! # Many senders and one receiver

The abstract meaning of a log: the messages of any number of senders come together at one
receiver, in an order that is left open. Each sender on its own has a lossless first-in
first-out channel. -/

namespace StaticLog.Collector

open StaticLog.Execution

/-- Everything that was ever sent, and everything that was ever received, with its
sender. -/
structure History (Sender : Type u) (Message : Type v) where
  sent : Sender → List Message
  received : List (Sender × Message)

variable {Sender : Type u} {Message : Type v} [DecidableEq Sender]

namespace History

/-- What was received from one of the senders. -/
def receivedFrom (history : History Sender Message) (sender : Sender) : List Message :=
  (history.received.filter fun pair => pair.1 = sender).map Prod.snd

def send (sender : Sender) (message : Message) (history : History Sender Message) :
    History Sender Message :=
  { history with
    sent := Function.update history.sent sender (history.sent sender ++ [message]) }

def receive (sender : Sender) (message : Message) (history : History Sender Message) :
    History Sender Message :=
  { history with received := history.received ++ [(sender, message)] }

/-- The history of the channel of one sender. -/
def channel (sender : Sender) (history : History Sender Message) : Channel.History Message where
  sent := history.sent sender
  received := history.receivedFrom sender

variable (history : History Sender Message) (sender : Sender) (message : Message)

@[simp] theorem channel_send_self : (history.send sender message).channel sender =
    { history.channel sender with sent := history.sent sender ++ [message] } := by
  simp [channel, send, receivedFrom]

theorem channel_send_of_ne {other : Sender} (different : other ≠ sender) :
    (history.send sender message).channel other = history.channel other := by
  simp [channel, send, receivedFrom, Function.update_of_ne different]

@[simp] theorem channel_receive_self : (history.receive sender message).channel sender =
    { history.channel sender with received := history.receivedFrom sender ++ [message] } := by
  simp [channel, receive, receivedFrom]

theorem channel_receive_of_ne {other : Sender} (different : other ≠ sender) :
    (history.receive sender message).channel other = history.channel other := by
  simp [channel, receive, receivedFrom, Ne.symm different]

end History

/-- The receiver takes the oldest message of any sender that it has not received yet. -/
inductive Step : History Sender Message → Sender × Channel.Event Message →
    History Sender Message → Prop
  | send (history : History Sender Message) (sender : Sender) (message : Message) :
      Step history (sender, .send message) (history.send sender message)
  | receive (history : History Sender Message) (sender : Sender) (message : Message)
      (later : List Message) :
      history.sent sender = history.receivedFrom sender ++ message :: later →
      Step history (sender, .receive message) (history.receive sender message)

def system (Sender : Type u) (Message : Type v) [DecidableEq Sender] :
    System (History Sender Message) (Sender × Channel.Event Message) where
  Initial history := (∀ sender, history.sent sender = []) ∧ history.received = []
  Step := Step

/-- Seen by one sender, the others are not visible and the receiver is at the end of a
channel. -/
def refinesChannel (sender : Sender) :
    Refinement (system Sender Message) (Channel.system Message) where
  view := History.channel sender
  Invariant _ := True
  initial := by
    rintro history ⟨sent, received⟩
    refine ⟨trivial, sent sender, ?_⟩
    simp [History.channel, History.receivedFrom, received]
  keeps := fun _ _ _ _ _ => trivial
  simulates := by
    rintro before label after _ step
    cases step with
    | send other message =>
        by_cases same : sender = other
        · subst same
          rw [History.channel_send_self]
          exact .inr ⟨.send message, .send _ message⟩
        · exact .inl (History.channel_send_of_ne before other message same)
    | receive other message later split =>
        by_cases same : sender = other
        · subst same
          rw [History.channel_receive_self]
          exact .inr ⟨.receive message, .receive _ message later split⟩
        · exact .inl (History.channel_receive_of_ne before other message same)

/-- What was received from a sender is a leading part of what it sent. -/
theorem receivedFrom_isPrefix {history : History Sender Message}
    (reachable : (system Sender Message).Reachable history) (sender : Sender) :
    history.receivedFrom sender <+: history.sent sender :=
  Channel.received_isPrefix ((refinesChannel sender).reachable_view reachable)

end StaticLog.Collector
