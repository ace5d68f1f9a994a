import VsRemote.Messages

/-! Plane compression. The zstd library is a parameter. -/

namespace VsRemote

structure Zstd where
  compress : Bytes → Bytes
  decompress : Bytes → Except PyExc Bytes

def compressPlane (z : Zstd) (data : PlaneView) (mode : Compression) : Bytes :=
  let raw := if data.cContiguous then data.castB else data.tobytes
  match mode with
  | .zstd => z.compress raw
  | .none => raw

def decompressPlane (z : Zstd) (data : Bytes) (mode : Compression) : Except PyExc Bytes :=
  match mode with
  | .zstd => z.decompress data
  | .none => .ok data

/-- One turn of the loop of `_extract_and_compress_planes`. -/
def extractPlane (z : Zstd) (compression : Compression) (plane : PlaneView) : Bytes :=
  match compression with
  | .none => if plane.cContiguous then plane.castB else plane.tobytes
  | .zstd => compressPlane z plane .zstd

def extractAndCompressPlanes (z : Zstd) (frame : VideoFrame) (compression : Compression) :
    Nat → Except PyExc (List Bytes × Nat)
  | 0 => .ok ([], 0)
  | p + 1 => do
    let (planes, size) ← extractAndCompressPlanes z frame compression p
    match frame.planes[p]? with
    | none => .error (.ofText .indexError "Specified plane index out of range")
    | some plane => pure (planes ++ [extractPlane z compression plane], size + plane.nbytes)

end VsRemote
