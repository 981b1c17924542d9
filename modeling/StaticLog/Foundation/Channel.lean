import StaticLog.Foundation.Execution

/-! # Lossless first-in first-out channels

The abstract meaning of a queue between one sender and one receiver: messages
leave in the order in which they entered, each exactly once and unchanged. -/

namespace StaticLog.Channel

open StaticLog.Execution

/-- Everything that was ever sent and everything that was ever received. -/
structure History (Message : Type u) where
  sent : List Message
  received : List Message

inductive Event (Message : Type u)
  | send (message : Message)
  | receive (message : Message)

/-- A receive returns the oldest message that was sent and not yet received. -/
inductive Step : History Message → Event Message → History Message → Prop
  | send (history : History Message) (message : Message) :
      Step history (.send message)
        { history with sent := history.sent ++ [message] }
  | receive (history : History Message) (message : Message) (later : List Message) :
      history.sent = history.received ++ message :: later →
      Step history (.receive message)
        { history with received := history.received ++ [message] }

def system (Message : Type u) : System (History Message) (Event Message) where
  Initial history := history.sent = [] ∧ history.received = []
  Step := Step

theorem Step.received_isPrefix {before after : History Message}
    {event : Event Message} (step : Step before event after)
    (ordered : before.received <+: before.sent) :
    after.received <+: after.sent := by
  cases step with
  | send message => exact ordered.trans (List.prefix_append _ _)
  | receive message later split =>
      exact ⟨later, by simp [split]⟩

/-- At every moment the messages received are a leading part of those sent. -/
theorem received_isPrefix {history : History Message}
    (reachable : (system Message).Reachable history) :
    history.received <+: history.sent := by
  refine reachable.invariant (fun history => history.received <+: history.sent) ?_ ?_
  · rintro state ⟨sent, received⟩
    simp [sent, received]
  · intro before event after ordered step
    exact step.received_isPrefix ordered

end StaticLog.Channel
