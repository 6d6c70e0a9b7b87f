import RecordFlow.Workspace.Basic

/-!
# Relations and records in a workspace

A relation in a slot counts as computed once a request has read its rows. A request that is refused
has not read them.
-/

namespace RecordFlow.Workspace

def readRelation {α : Type} (w : Workspace) (slot : Nat) (f : Relation → Except Fault α) :
    Outcome α :=
  match w.getAs slot Holding.relation? with
  | .error refusal => (.error refusal, w)
  | .ok r =>
    match f r with
    | .error fault => (.error (.fault fault), w)
    | .ok a => (.ok a, w.replace slot (some (.relation r.materialize)))

def makeFromRelation (w : Workspace) (slot : Nat) (f : Relation → Except Fault Holding) :
    Outcome Nat :=
  match w.readRelation slot f with
  | (.error refusal, w) => (.error refusal, w)
  | (.ok h, w) =>
    let (made, w) := w.add h
    (.ok made, w)

/-- The relation of a slot with another name for one attribute. -/
def rename (w : Workspace) (slot : Nat) (source target : String) : Outcome Relation :=
  match w.getAs slot Holding.relation? with
  | .error refusal => (.error refusal, w)
  | .ok r =>
    match r.rename source target with
    | .error fault => (.error (.fault fault), w)
    | .ok renamed => (.ok renamed, w.replace slot (some (.relation renamed)))

/-- A value put into the record of a slot; the answer is the value it replaces and the record. -/
def putField (w : Workspace) (slot : Nat) (name : String) (v : Value) :
    Outcome (Option Value × Record) :=
  match w.getAs slot Holding.record? with
  | .error refusal => (.error refusal, w)
  | .ok r =>
    let changed := r.put name v
    (.ok (r.get? name, changed), w.replace slot (some (.record changed)))

/-- An attribute taken from the record of a slot; the answer is its value and the record. -/
def removeField (w : Workspace) (slot : Nat) (name : String) : Outcome (Option Value × Record) :=
  match w.getAs slot Holding.record? with
  | .error refusal => (.error refusal, w)
  | .ok r =>
    let changed := r.remove name
    (.ok (r.get? name, changed), w.replace slot (some (.record changed)))

/-- What a change of the token stream of a slot comes to. -/
def onTokens {α : Type} (w : Workspace) (slot : Nat)
    (f : Query.TokenStream → α × Query.TokenStream) : Outcome α :=
  match w.getAs slot Holding.tokens? with
  | .error refusal => (.error refusal, w)
  | .ok t =>
    let (a, t) := f t
    (.ok a, w.replace slot (some (.tokens t)))

end RecordFlow.Workspace
