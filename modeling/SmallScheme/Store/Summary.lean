import SmallScheme.Store.Rendering
import SmallScheme.Store.Scope

/-!
# Summaries of frames

For a reader who wants to see what is bound where: `frameSummary` shows the bindings of one frame,
and `scopeSummary` those of a frame and of all frames around it.  Values are shown with their
kind, and bindings in the order in which their names were first bound.
-/

namespace SmallScheme

namespace Store

/-- The bindings of a frame between braces. -/
def bindingsText (s : Store) (limit : Nat) (f : FrameId) : Except Error String := do
  let entries ← (s.frame f).bindings.mapM fun (x, v) => do
    return x.name ++ ": " ++ (← s.inspect limit v)
  return "\x7b" ++ ", ".intercalate entries ++ "\x7d"

/-- The bindings of a frame, and a mark if there is a frame around it. -/
def frameSummary (s : Store) (limit : Nat) (f : FrameId) : Except Error String := do
  let text ← s.bindingsText limit f
  return if (s.frame f).outer.isSome then text ++ " -> ..." else text

/-- The bindings of a frame and of all frames around it, from the inside outwards. -/
def scopeSummary (s : Store) (limit : Nat) (f : FrameId) : Except Error String := do
  let texts ← (s.scopes f).mapM (s.bindingsText limit)
  return "<Environment chain: " ++ " -> ".intercalate texts ++ ">"

end Store

end SmallScheme
