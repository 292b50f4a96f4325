import Fable.Object.View

namespace Fable.Store

/-- A change of the store that may fail; what it has done before it fails stays. -/
abbrev Change := EStateM Fault Store

def detach (s : Store) (id container : Value) : Store :=
  { s with arrivals := s.arrivals.eraseP fun a ↦
      Value.alike a.container container && Value.alike a.object id }

def attach (s : Store) (id container : Value) : Store :=
  { s with arrivals := s.arrivals ++ [⟨id, container⟩] }

def update (s : Store) (id : Value) (f : Record → Record) : Store :=
  { s with records := s.records.modify id f }

def cycleFault (s : Store) (id into : Value) : Fault :=
  match s.text id, s.text into with
  | .ok x, .ok p => .cycle x p
  | .error f, _ => f
  | _, .error f => f

/-- Why the object cannot be put there: it would end up inside itself, or that is no place at
all. -/
def obstacle? (s : Store) (id into : Value) : Option Fault :=
  if into.isNone then none
  else if s.equal into id then some (s.cycleFault id into)
  else if !into.hashable then some .mismatch
  else if s.held into id then some (s.cycleFault id into)
  else none

def unknownFault (s : Store) (id : Value) (names : List Value) : Fault :=
  match s.text id, (Value.list names).toText with
  | .ok t, .ok names => .unknownOptions t names
  | .error f, _ => f
  | _, .error f => f

def refusal? (s : Store) (id : Value) (a : Attributes) : Option Fault :=
  if a.clashing then some .mismatch
  else if !a.unknown.isEmpty then some (s.unknownFault id a.unknown)
  else match s.obstacle? id a.parent with
    | some f => some f
    | none => if id.hashable then none else some .mismatch

def leave (s : Store) (id : Value) : Store :=
  match s.lookup? id with
  | some r => s.detach id r.parent
  | none => s

def enter (s : Store) (r : Record) : Store :=
  attach { s with
    records := s.records.insert r.id r
    retired := (s.lookup? r.id).toList ++ s.retired
    made := s.made + 1 } r.id r.parent

/-- Creates or replaces an object; the value is its record. It leaves its old container before its
flags and properties are looked at. -/
def define (id : Value) (a : Attributes) : Change Value := fun s ↦
  match s.refusal? id a with
  | some f => .error f s
  | none => match a.record id s.made with
    | .error f => .error f (s.leave id)
    | .ok r => .ok (.object s.made) ((s.leave id).enter r)

def transfer (s : Store) (id source into : Value) : Store :=
  ((s.detach id source).update id fun r ↦ { r with parent := into }).attach id into

/-- Puts an object into a container, or into none. An object that is not defined stays away. -/
def move (id into : Value) : Change Unit := fun s ↦
  if !id.hashable then .error .mismatch s
  else match s.find? id with
    | none => .ok () s
    | some r => match s.obstacle? id into with
      | some f => .error f s
      | none => .ok () (s.transfer id r.parent into)

def remove (id : Value) : Change Unit :=
  move id .none

def edit (id : Value) (objection : Option Fault) (f : Record → Record) : Change Unit := fun s ↦
  if !id.hashable then .error .mismatch s
  else if !s.isDefined id then .ok () s
  else match objection with
    | some e => .error e s
    | none => .ok () (s.update id f)

def unnamable? (v : Value) : Option Fault :=
  if v.hashable then none else some .mismatch

def unseekable? (v : Value) : Option Fault :=
  if v.seekable then none else some .mismatch

def setFlag (id flag : Value) : Change Unit :=
  edit id (unnamable? flag) (·.setFlag flag)

def clearFlag (id flag : Value) : Change Unit :=
  edit id (unseekable? flag) (·.clearFlag flag)

def setProperty (id key value : Value) : Change Unit :=
  match Field.ofKey? key with
  | some f => edit id none (·.setField f value)
  | none => edit id (unnamable? key) fun r ↦ { r with properties := r.properties.insert key value }

/-- No objects at all; values that refer to records still do. -/
def cleared (s : Store) : Store where
  retired := s.records.entries ++ s.retired
  made := s.made

end Fable.Store
