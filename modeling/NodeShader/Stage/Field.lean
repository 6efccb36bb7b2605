/-!
# Fields

The image a compute stage fills: its dimensions, the texels per axis, and the size of the workgroups
that fill it.
-/

namespace NodeShader

structure Field where
  dim : Int
  resolution : Int
  localSize : List Int
  deriving DecidableEq, Repr

/-- The number of workgroups along one axis; `none` for workgroups of size zero. -/
def Field.groupsAlong? (f : Field) (axis : Nat) (size : Int) : Option Int :=
  let extent := if axis < f.dim then f.resolution else 1
  if size = 0 then none else some ((extent + size - 1).tdiv size)

/-- The number of workgroups that cover the field along each axis. -/
def Field.dispatchSize? (f : Field) : Option (List Int) :=
  f.localSize.zipIdx.mapM fun (size, axis) => f.groupsAlong? axis size

end NodeShader
