import VsRemote.MsgPack

/-! The VapourSynth and vsengine objects the server handles. -/

namespace VsRemote

structure VideoFormat where
  id : Int
  name : String
  numPlanes : Nat
  bytesPerSample : Nat
  bitsPerSample : Nat
  subsamplingW : Nat
  subsamplingH : Nat
  sampleType : Int
  colorFamily : Int
  deriving DecidableEq, Repr

/-- A clip. `node` tells two clips apart; a variable format has id 0. -/
structure VideoNode where
  node : Nat
  width : Nat
  height : Nat
  fpsNumerator : Int
  fpsDenominator : Int
  numFrames : Nat
  format : VideoFormat
  deriving DecidableEq, Repr

def VideoNode.gray8 (node width height : Nat) : VideoNode :=
  ⟨node, width, height, 24, 1, 1, ⟨268959744, "Gray8", 1, 1, 8, 0, 0, 0, 1⟩⟩

def VideoNode.variableFormat (node width height : Nat) : VideoNode :=
  ⟨node, width, height, 24, 1, 1, ⟨0, "None", 0, 0, 0, 0, 0, 0, 0⟩⟩

/-- A VapourSynth environment; a `ManagedEnvironment` is one the runner disposes. -/
structure Environment where
  id : Nat
  managed : Bool
  deriving DecidableEq, Repr

structure Script where
  id : Nat
  environment : Environment
  deriving DecidableEq, Repr

inductive Output where
  | video (clip : VideoNode)
  | audio
  deriving DecidableEq, Repr

/-- The memoryview of a frame's plane: rows of `width` samples, `stride` bytes apart. -/
structure PlaneView where
  height : Nat
  width : Nat
  itemsize : Nat
  stride : Nat
  mem : Nat → UInt8

namespace PlaneView

def rowSize (v : PlaneView) : Nat := v.width * v.itemsize

def nbytes (v : PlaneView) : Nat := v.height * v.rowSize

/-- `memoryview.c_contiguous` of a two-dimensional view. -/
def cContiguous (v : PlaneView) : Bool :=
  v.height = 0 ∨ v.width = 0 ∨ v.height = 1 ∨ v.stride = v.rowSize

def row (v : PlaneView) (y : Nat) : Bytes := (List.range v.rowSize).map (fun x => v.mem (y * v.stride + x))

/-- `memoryview.tobytes()`: the logical rows in order. -/
def tobytes (v : PlaneView) : Bytes := (List.range v.height).flatMap v.row

/-- `memoryview.cast("B")` of a contiguous view: its bytes as they lie. -/
def castB (v : PlaneView) : Bytes := (List.range v.nbytes).map v.mem

end PlaneView

/-- A frame property value, with what `repr` prints where it may be needed. -/
inductive PropValue where
  | int (n : Int)
  | float (q : Rat)
  | str (s : String)
  | bytes (b : Bytes)
  | list (items : List PropValue) (repr : String)
  | other (repr : String)

/-- A rendered frame; `id` tells two frames apart. -/
structure VideoFrame where
  id : Nat
  numPlanes : Nat
  planes : List PlaneView
  props : List (String × PropValue)

/-- The value as sent, when it is one of the primitive types. -/
def PropValue.primitive? : PropValue → Option Obj
  | .int n => some (.int n)
  | .float q => some (.float q)
  | .str s => some (.str s)
  | .bytes b => some (.bin b)
  | .list _ _ => none
  | .other _ => none

def PropValue.allPrimitive : List PropValue → Option (List Obj)
  | [] => some []
  | v :: vs => do
    let o ← v.primitive?
    let os ← allPrimitive vs
    pure (o :: os)

def PropValue.sanitize : PropValue → Obj
  | .int n => .int n
  | .float q => .float q
  | .str s => .str s
  | .bytes b => .bin b
  | .list items repr =>
    match allPrimitive items with
    | some os => .array os
    | none => .str repr
  | .other repr => .str repr

def sanitizeProps (props : List (String × PropValue)) : List (String × Obj) :=
  props.map (fun kv => (kv.1, kv.2.sanitize))

end VsRemote
