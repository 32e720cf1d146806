import Docset.Scan.Braces
import Docset.Scan.Options
import Docset.Story.Group

/-!
# Scanning a story module

The text is split at its grouping calls. What follows the name literal of a group,
up to the next grouping call, is that group's window; the variants of the group
are the name literals of the variant calls there, regions in braces left out.
The literal of a variant may run past the end of its window. The first error ends
the scan.
-/
namespace Docset.Scan
open Text (Cursor)

/-- A compiler of call patterns, which may refuse a pattern and then says why. -/
abbrev PatternCompiler := CallPattern → Except String Unit

namespace Options

def groupPattern (o : Options) : CallPattern := .function o.groupCall

def variantPattern (o : Options) : CallPattern := .method o.variantMethod

/-- Compiles the patterns of the two calls. No scan is made with a pattern that is refused. -/
def compile (compiler : PatternCompiler) (o : Options) : Except Error Unit := do
  (compiler o.groupPattern).mapError .invalidPattern
  (compiler o.variantPattern).mapError .invalidPattern

end Options

/-- The variant names from `c` to `stop`, after those already `found` (last first). -/
def collectVariants (p : CallPattern) (stop : Nat) (c : Cursor) (found : List String) :
    Except Error (List String) :=
  if c.offset < stop then
    match hmark : mark? p stop c.offset c.rest with
    | none => .ok found.reverse
    | some (.brace place) =>
        match hclose : matchBrace stop place with
        | .error e => .error e
        | .ok next =>
            have : next.rest.length < c.rest.length :=
              Nat.lt_of_lt_of_le (matchBrace_length_lt hclose) (mark?_brace_length_le hmark)
            collectVariants p stop next found
    | some (.call args) =>
        match hread : Literal.read? args with
        | .error e => .error e
        | .ok none => .error (.missingVariantName args.offset)
        | .ok (some literal) =>
            have : literal.stop.rest.length < c.rest.length :=
              Nat.lt_trans (Literal.read?_length_lt hread) (mark?_call_length_lt hmark)
            if literal.value.isEmpty then .error (.missingVariantName args.offset)
            else collectVariants p stop literal.stop (literal.value :: found)
  else .ok found.reverse
termination_by c.rest.length

/-- The groups from the grouping call `next` on, after those already `found` (last first). The
text ends at byte `length`. -/
def collectGroups (o : Options) (length : Nat) (next : CallMatch) (found : List Story.Group) :
    Except Error (List Story.Group) :=
  match hread : Literal.read? next.args with
  | .error e => .error e
  | .ok none => .error (.missingGroupName next.args.offset)
  | .ok (some name) =>
      match hfind : o.groupPattern.find? length name.stop.offset name.stop.rest with
      | none =>
          match collectVariants o.variantPattern length name.stop [] with
          | .error e => .error e
          | .ok variants => .ok (⟨name.value, variants⟩ :: found).reverse
      | some following =>
          have : following.args.rest.length < next.args.rest.length :=
            Nat.lt_trans (CallPattern.find?_length_lt hfind) (Literal.read?_length_lt hread)
          match collectVariants o.variantPattern following.start name.stop [] with
          | .error e => .error e
          | .ok variants => collectGroups o length following (⟨name.value, variants⟩ :: found)
termination_by next.args.rest.length

/-- The first grouping call of `text` at or after byte `start`. -/
def locateGroup (o : Options) (text : String) (start : Nat) :
    Except Text.OffsetError (Option CallMatch) :=
  o.groupPattern.findIn? text start text.utf8ByteSize

/-- The groups of a module whose length is not limited. -/
def scanUnlimited (o : Options) (text : String) : Except Error (List Story.Group) :=
  let cs := text.toList
  let length := Text.byteLength cs
  match o.groupPattern.find? length 0 cs with
  | none => .ok []
  | some first => collectGroups o length first []

/-- The groups of a module, in source order. -/
def scan (o : Options) (text : String) : Except Error (List Story.Group) :=
  match o.maxInputLength with
  | none => scanUnlimited o text
  | some limit =>
      if limit.toNat < text.utf8ByteSize then .error (.inputTooLarge text.utf8ByteSize limit.toNat)
      else scanUnlimited o text

end Docset.Scan
