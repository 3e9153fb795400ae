import Switchboard.Client.Basic

/-!
# Scripted providers

A provider that follows a script: each attempt that reaches it uses the next step, and the last
step over and over again. A step waits, or never answers, and then fails, replies, or opens a stream
whose items are waited for one by one. Waits end at whole milliseconds, after thirty years at the
latest.
-/

namespace Switchboard.Client.Script

open Chat

structure Item where
  hangs : Bool
  delay : Nat
  outcome : Except ChatError Delta

inductive Act where
  | fail (e : ChatError)
  | reply (text : String) (usage : Option Usage)
  | stream (items : List Item)
  /-- Replies with the last message of the request. -/
  | echo

structure Step where
  hangs : Bool := false
  delay : Nat := 0
  act : Act := .echo

/-- The instant at which a wait of `d` from `now` on ends. -/
def wait (now d : Nat) : Nat := Duration.ceilMillis (now + min d Duration.farFuture)

def replied (text : String) (usage : Option Usage) : Outcome :=
  .response ⟨.blank, .ofText .assistant text, usage⟩

/-- What a chat gets from a step. -/
def Step.chat (now : Nat) (r : Request) (s : Step) : Work Outcome :=
  let done := if s.hangs then none else some (wait now s.delay)
  ⟨done, match s.act with
    | .fail e => .failure e
    | .reply text usage => replied text usage
    | .stream _ => .failure (.invalidRequest "not a chat step")
    | .echo => replied ("echo: " ++ (r.messages.getLast?.map Message.asText).getD "") none⟩

def Item.work (now : Nat) (i : Item) : Work Pulled :=
  ⟨if i.hangs then none else some (wait now i.delay), some i.outcome⟩

/-- The items of the stream that a step opens. -/
def Step.items (s : Step) : List Item :=
  match s.act with
  | .reply text _ => [⟨false, 0, .ok (.fragment text)⟩, ⟨false, 0, .ok .terminal⟩]
  | .stream items => items
  | .fail _ | .echo => []

/-- What pulling item number `n` of a stream gets. -/
def Step.pull (now n : Nat) (s : Step) : Work Pulled :=
  match s.items[n]? with
  | some item => item.work now
  | none => ⟨some now, none⟩

def opened : Pulled → Outcome
  | some (.ok d) => .stream (some d)
  | some (.error e) => .failure e
  | none => .stream none

/-- What opening a stream and pulling its first item gets from a step. -/
def Step.open (now : Nat) (s : Step) : Work Outcome :=
  if s.hangs then ⟨none, .stream none⟩
  else
    let answered := wait now s.delay
    match s.act with
    | .fail e => ⟨some answered, .failure e⟩
    | _ =>
      let first := s.pull answered 0
      ⟨first.done, opened first.outcome⟩

end Script

structure Provider where
  id : String
  script : List Script.Step

/-- The number of the step that follows `n` others. -/
def Provider.stepIndex (p : Provider) (n : Nat) : Nat := min n (p.script.length - 1)

def Provider.step (p : Provider) (n : Nat) : Script.Step := p.script.getD (p.stepIndex n) {}

end Switchboard.Client
