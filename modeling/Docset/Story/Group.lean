/-!
# Story groups

A group is one grouping call of a module together with the variants registered on
it, in source order.
-/
namespace Docset.Story

structure Group where
  name : String
  variants : List String
  deriving DecidableEq, Repr, Inhabited

end Docset.Story
