import Inlay.Scene.Dispatch
import Inlay.Selector.Match

/-!
# Watching instances

An observer that keeps a log of everything it is told, with a picture of the instance at that
moment, and that reacts: some notifications make it fire an event or abort a signal, each reaction a
given number of times. A reaction can cause further notifications, to which the observer reacts as
well before it goes on; since every reaction uses up one of finitely many charges, this ends.
-/

namespace Inlay

/-- How the node for an event is given. -/
inductive Aim where
  /-- One of the elements that a selector finds, counted from zero; the empty selector means the
  root. -/
  | select (source : String) (nth : Nat)
  /-- A node remembered under a name. -/
  | mark (name : String)

/-- Why an event was not fired. -/
inductive FireError where
  | badSelector (source : String) (error : Selector.SyntaxError)
  /-- The selector found fewer elements; how many. -/
  | tooFew (found : Nat)
  | unknownMark (name : String)
  | failure (f : Failure)

/-- Which notifications a reaction answers. -/
inductive Cue where
  | status (code : Nat)
  | nodes
  | root
  | fragment
deriving DecidableEq

def Notification.cue : Notification → Cue
  | .status code _ => .status code
  | .nodes _ _ => .nodes
  | .root _ => .root
  | .fragment _ => .fragment

/-- What a reaction does. -/
inductive Action where
  | fire (aim : Aim) (event : String)
  | abort (signal : SignalId)

/-- A reaction that is left to do some number of times. -/
structure Reaction where
  cue : Cue
  charges : Nat
  action : Action

/-- What a reaction has done. -/
inductive Outcome where
  /-- It has fired an event; how many requests were started. -/
  | fired (result : Except FireError Nat)
  | aborted

/-- An entry of the log of an instance's observer. -/
inductive LogEntry where
  /-- It was told something; with the markup of the nodes and the record concerned. -/
  | seen (inst : Nat) (label : String) (n : Notification) (html : String)
      (record : Option RequestRecord)
  | reacted (inst : Nat) (label : String) (outcome : Outcome)

/-- What the observers of several instances keep. -/
structure Watch where
  log : List LogEntry
  marks : List (String × NodeId)
  /-- The reactions of an instance's observers by their names, in the order in which they act. -/
  reactions : List ((Nat × String) × List Reaction)

namespace Watch

def empty : Watch := ⟨[], [], []⟩

def note (w : Watch) (e : LogEntry) : Watch :=
  { w with log := w.log ++ [e] }

/-- How many reactions can still happen. -/
def charges (w : Watch) : Nat :=
  (w.reactions.flatMap (·.2)).foldl (fun n r => n + r.charges) 0

/-- The reactions of one observer. -/
def reactionsOf (w : Watch) (inst : Nat) (label : String) : List Reaction :=
  (w.reactions.lookup (inst, label)).getD []

/-- Uses up one charge of a reaction. -/
def spend (w : Watch) (inst : Nat) (label : String) (index : Nat) : Watch :=
  { w with reactions := w.reactions.map fun r =>
      if r.1 = (inst, label) then
        (r.1, r.2.modify index fun x => { x with charges := x.charges - 1 })
      else r }

end Watch

namespace Scene

/-- The nodes that a selector finds below the root. -/
def find (i : Instance) (source : String) : Except FireError (List NodeId) :=
  match Selector.parse source with
  | .error error => .error (.badSelector source error)
  | .ok selector =>
    match i.arena.select i.root selector with
    | .error fault => .error (.failure (.arithmetic fault))
    | .ok ids => .ok ids

/-- The target that is meant. -/
def locate (i : Instance) (marks : List (String × NodeId)) : Aim → Except FireError NodeId
  | .mark name =>
    match marks.lookup name with
    | some id => .ok id
    | none => .error (.unknownMark name)
  | .select source nth =>
    if source.isEmpty then .ok i.root
    else do
      let ids ← find i source
      match ids[nth]? with
      | some id => return id
      | none => throw (.tooFew ids.length)

/-- Fires an event; how many requests were started. -/
def fireAt (observe : Observer Watch) (aim : Aim) (event : String) (s : Scene Watch) :
    Except FireError Nat × Scene Watch :=
  match locate s.inst s.memory.marks aim with
  | .error e => (.error e, s)
  | .ok target =>
    match (dispatch observe target event).run s with
    | .ok n s => (.ok n, s)
    | .error f s => (.error (.failure f), s)

/-- Enters a notification into the log. -/
def record (label : String) (n : Notification) (s : Scene Watch) : Scene Watch :=
  let html :=
    match n with
    | .status _ _ => ""
    | .fragment id | .root id => s.inst.arena.html id
    | .nodes ids _ => s.inst.arena.htmlAll ids
  let record :=
    match n with
    | .status _ (some p) | .nodes _ p => s.inst.record? p
    | _ => none
  { s with memory := s.memory.note (.seen s.inst.id label n html record) }

/-- Does what a reaction does. -/
def act (observe : Observer Watch) (s : Scene Watch) : Action → Outcome × Scene Watch
  | .fire aim event =>
    let (result, s) := s.fireAt observe aim event
    (.fired result, s)
  | .abort signal => (.aborted, s.mapHost (·.abort signal))

/-- Lets one reaction answer a notification, if that is its cue and it has a charge left. -/
def react (observe : Observer Watch) (label : String) (n : Notification) (s : Scene Watch)
    (index : Nat) : Scene Watch :=
  match (s.memory.reactionsOf s.inst.id label)[index]? with
  | none => s
  | some r =>
    if r.cue = n.cue ∧ r.charges ≠ 0 then
      let s := { s with memory := s.memory.spend s.inst.id label index }
      let (outcome, s) := s.act observe r.action
      { s with memory := s.memory.note (.reacted s.inst.id label outcome) }
    else s

/-- The observer that keeps the log and reacts, with reactions nested at most `depth` deep. -/
def watching : Nat → Observer Watch
  | 0, label, n, s => s.record label n
  | depth + 1, label, n, s =>
    let s := s.record label n
    (List.range (s.memory.reactionsOf s.inst.id label).length).foldl
      (react (watching depth) label n) s

end Scene

end Inlay
