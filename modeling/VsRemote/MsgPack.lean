import VsRemote.Constants

/-! MessagePack payloads. `msgspec` is a parameter between bytes and object
trees; how a tree becomes a typed struct is modelled field by field. -/

namespace VsRemote

/-- A MessagePack object tree, maps keyed by text as every struct's is. -/
inductive Obj where
  | nil
  | bool (b : Bool)
  | int (n : Int)
  | float (q : Rat)
  | str (s : String)
  | bin (b : Bytes)
  | array (xs : List Obj)
  | map (kvs : List (String × Obj))

/-- `msgspec.msgpack.encode` and `.decode` up to object trees. Encoding raises
on values MessagePack has no form for, decoding reports why bytes are no
MessagePack. -/
structure Msgspec where
  encode : Obj → Except PyExc Bytes
  decode : Bytes → Except String Obj

/-- No MessagePack form is empty, and decoding gives back what was encoded. -/
structure Msgspec.Lawful (m : Msgspec) : Prop where
  nonempty : ∀ o b, m.encode o = .ok b → b ≠ []
  decode_encode : ∀ o b, m.encode o = .ok b → m.decode b = .ok o

/-- A codec that knows just these forms. -/
theorem Msgspec.lawful_of_forms {m : Msgspec} (forms : List (Obj × Bytes))
    (hencode : ∀ o b, m.encode o = .ok b → (o, b) ∈ forms)
    (hforms : ∀ form ∈ forms, form.2 ≠ [] ∧ m.decode form.2 = .ok form.1) : m.Lawful := by
  constructor
  · intro o b h
    exact (hforms _ (hencode o b h)).1
  · intro o b h
    exact (hforms _ (hencode o b h)).2

namespace Obj

def asInt : Obj → Except String Int
  | .int n => .ok n
  | _ => .error "Expected `int`"

def asStr : Obj → Except String String
  | .str s => .ok s
  | _ => .error "Expected `str`"

def asBool : Obj → Except String Bool
  | .bool b => .ok b
  | _ => .error "Expected `bool`"

def asFloat : Obj → Except String Rat
  | .float q => .ok q
  | .int n => .ok n
  | _ => .error "Expected `float`"

def asOption {α : Type} (f : Obj → Except String α) : Obj → Except String (Option α)
  | .nil => .ok none
  | o => (f o).map some

def asListAux {α : Type} (f : Obj → Except String α) : List Obj → Except String (List α)
  | [] => .ok []
  | x :: xs => do
    let a ← f x
    let as ← asListAux f xs
    pure (a :: as)

def asList {α : Type} (f : Obj → Except String α) : Obj → Except String (List α)
  | .array xs => asListAux f xs
  | _ => .error "Expected `array`"

def asDictAny : Obj → Except String (List (String × Obj))
  | .map kvs => .ok kvs
  | _ => .error "Expected `object`"

def asStruct : Obj → Except String (List (String × Obj))
  | .map kvs => .ok kvs
  | _ => .error "Expected `object`"

def asStatus (o : Obj) : Except String StatusCode := do
  let n ← o.asInt
  match StatusCode.ofNat? n.toNat with
  | some s => if n < 0 then .error "Invalid enum value" else .ok s
  | none => .error "Invalid enum value"

def asCompression (o : Obj) : Except String Compression := do
  let s ← o.asStr
  match Compression.ofLiteral? s with
  | some c => .ok c
  | none => .error "Invalid enum value"

def ofOption {α : Type} (f : α → Obj) : Option α → Obj
  | none => .nil
  | some a => f a

@[simp] theorem asInt_int (n : Int) : asInt (.int n) = .ok n := rfl
@[simp] theorem asStr_str (s : String) : asStr (.str s) = .ok s := rfl
@[simp] theorem asBool_bool (b : Bool) : asBool (.bool b) = .ok b := rfl
@[simp] theorem asFloat_float (q : Rat) : asFloat (.float q) = .ok q := rfl
@[simp] theorem asDictAny_map (kvs : List (String × Obj)) : asDictAny (.map kvs) = .ok kvs := rfl
@[simp] theorem asStruct_map (kvs : List (String × Obj)) : asStruct (.map kvs) = .ok kvs := rfl

@[simp] theorem asStatus_value (s : StatusCode) : asStatus (.int s.value) = .ok s := by
  cases s <;> rfl

@[simp] theorem asCompression_literal (c : Compression) :
    asCompression (.str c.literal) = .ok c := by
  cases c <;> rfl

theorem asOption_ofOption {α : Type} {f : Obj → Except String α} {g : α → Obj}
    (hf : ∀ a, f (g a) = .ok a) (hg : ∀ a, g a ≠ .nil) (o : Option α) :
    asOption f (ofOption g o) = .ok o := by
  cases o with
  | none => rfl
  | some a =>
    have hh : asOption f (g a) = (f (g a)).map some := by
      cases hga : g a with
      | nil => exact absurd hga (hg a)
      | _ => rfl
    rw [ofOption, hh, hf]
    rfl

@[simp] theorem asOption_str (o : Option String) :
    asOption asStr (ofOption .str o) = .ok o :=
  asOption_ofOption asStr_str (fun _ h => by cases h) o

@[simp] theorem asOption_int (o : Option Int) :
    asOption asInt (ofOption .int o) = .ok o :=
  asOption_ofOption asInt_int (fun _ h => by cases h) o

@[simp] theorem asOption_float (o : Option Rat) :
    asOption asFloat (ofOption .float o) = .ok o :=
  asOption_ofOption asFloat_float (fun _ h => by cases h) o

theorem asList_map {α : Type} {f : Obj → Except String α} {g : α → Obj}
    (h : ∀ a, f (g a) = .ok a) (xs : List α) : asList f (.array (xs.map g)) = .ok xs := by
  change asListAux f (xs.map g) = .ok xs
  induction xs with
  | nil => rfl
  | cons a xs ih => simp only [List.map_cons, asListAux, h, ih]; rfl

@[simp] theorem asList_int (xs : List Int) :
    asList asInt (.array (xs.map .int)) = .ok xs :=
  asList_map asInt_int xs

end Obj

/-- The value msgspec keeps for a field: the last one of a repeated key. -/
def lastField (name : String) : List (String × Obj) → Option Obj
  | [] => none
  | (k, v) :: kvs => (lastField name kvs).or (if k = name then some v else none)

@[simp] theorem lastField_nil (name : String) : lastField name [] = none := rfl

@[simp] theorem lastField_cons (name k : String) (v : Obj) (kvs : List (String × Obj)) :
    lastField name ((k, v) :: kvs) =
      (lastField name kvs).or (if k = name then some v else none) := rfl

def required {α : Type} (kvs : List (String × Obj)) (name : String)
    (f : Obj → Except String α) : Except String α :=
  match lastField name kvs with
  | some v => f v
  | none => .error ("Object missing required field `" ++ name ++ "`")

def optional {α : Type} (kvs : List (String × Obj)) (name : String)
    (f : Obj → Except String α) (default : α) : Except String α :=
  match lastField name kvs with
  | some v => f v
  | none => .ok default

class Packed (α : Type) where
  toObj : α → Obj
  ofObj : Obj → Except String α
  ofObj_toObj : ∀ a, ofObj (toObj a) = .ok a

/-- The body of a payload: an empty one stands for the empty map. -/
def payloadOrEmpty (data : Bytes) : Bytes := if data = [] then [0x80] else data

/-- `unpack_payload(data, T)`. -/
def unpackPayload (m : Msgspec) (α : Type) [Packed α] (data : Bytes) : Except PyExc α :=
  match m.decode (payloadOrEmpty data) with
  | .error text => .error (.ofText .decodeError text)
  | .ok o =>
    match Packed.ofObj o with
    | .error text => .error (.ofText .validationError text)
    | .ok a => .ok a

theorem unpackPayload_error {m : Msgspec} {α : Type} [Packed α] {data : Bytes} {e : PyExc}
    (h : unpackPayload m α data = .error e) : e.isMsgspecOrTypeError = true := by
  unfold unpackPayload at h
  split at h
  · obtain rfl := Except.error.inj h
    rfl
  · split at h
    · obtain rfl := Except.error.inj h
      rfl
    · cases h

/-- A codec that knows the given bytes and packs everything alike. -/
def Msgspec.table (forms : List (Bytes × Obj)) (packed : Bytes) : Msgspec where
  encode _ := .ok packed
  decode b := match forms.find? (fun f => f.1 = b) with
    | some f => .ok f.2
    | none => .error "MessagePack data is malformed"

end VsRemote
