import Docset.Proofs.Scan.InWindow
import Docset.Proofs.Scan.Segmentation

/-!
# A scan by bare offsets

The scan hands cursors from step to step, and a cursor is a place of the text by
construction. Here the same scan keeps byte offsets only. Its rounds are those of the two
loops: one over the groups, and inside it one over the variants of a window. Whenever a
round needs something of the text it makes a request with offsets, which is refused if
they do not delimit a part of the text; every request is noted.

From the first round on no request is refused: every offset that is passed is a boundary
of the text, and every part that is cut out starts before it ends, also where a literal
has run past the end of its window. Every round over variants moves its cursor forward,
every round over groups comes to a later call, and a measure goes down each time. So the
rounds come to an end, and they end with what the scan gives.
-/
namespace Docset.Scan.Stepwise
open Text (Cursor OffsetError Boundary byteLength)

/-- What a round asks about the text, with the offsets that it passes. -/
inductive Request where
  /-- The next grouping call from byte `start` on. -/
  | group (start : Nat)
  /-- The literal that is to be read from byte `start` on. -/
  | literal (start : Nat)
  /-- The first mark between two offsets. -/
  | mark (start stop : Nat)
  /-- The region that opens at byte `start` and ends by `stop`. -/
  | region (start stop : Nat)
  deriving DecidableEq, Repr

/-- The offsets of a request delimit a part of the text. -/
def Request.Sound (text : String) : Request → Prop
  | group i | literal i => i ≤ text.utf8ByteSize ∧ Boundary text.toList i
  | mark i j | region i j => i ≤ j ∧ j ≤ text.utf8ByteSize ∧ Boundary text.toList i ∧
      Boundary text.toList j

/-- Steps that make requests, the latest one noted first; a request with unfit offsets ends
them. -/
abbrev Asking (α : Type) := StateT (List Request) (Except OffsetError) α

def ask {α : Type} (q : Request) (answer : Except OffsetError α) : Asking α := fun asked =>
  answer.map fun a => (a, q :: asked)

def askGroup (o : Options) (text : String) (start : Nat) : Asking (Option CallMatch) :=
  ask (.group start) (locateGroup o text start)

def askLiteral (text : String) (start : Nat) : Asking (Except Error (Option Literal)) :=
  ask (.literal start) ((Cursor.at? text start).map Literal.read?)

def askMark (o : Options) (text : String) (start stop : Nat) : Asking (Option Mark) :=
  ask (.mark start stop) (markIn? o.variantPattern text start stop)

def askRegion (text : String) (start stop : Nat) : Asking (Except Error Cursor) :=
  ask (.region start stop) (matchBraceIn text start stop)

structure Site where
  start : Nat
  args : Nat
  deriving DecidableEq, Repr

def Site.of (m : CallMatch) : Site := ⟨m.start, m.args.offset⟩

/-- A window in which variants are looked for. -/
structure Visit where
  /-- The call of the group. -/
  call : Site
  name : String
  /-- How far the window has been searched. -/
  cursor : Nat
  /-- Where the window ends. -/
  stop : Nat
  /-- The grouping call after the window. -/
  following : Option Site
  /-- The variants found, the last one first. -/
  variants : List String
  deriving DecidableEq, Repr

/-- What the rounds hand on; the groups found are listed with the last one first. -/
inductive Stage where
  | start
  /-- A grouping call was found. -/
  | group (call : Site) (found : List Story.Group)
  | window (v : Visit) (found : List Story.Group)
  deriving DecidableEq, Repr

inductive Outcome where
  | next (s : Stage)
  | finished (result : Except Error (List Story.Group))

def proceed (following : Option Site) (found : List Story.Group) : Outcome :=
  match following with
  | none => .finished (.ok found.reverse)
  | some call => .next (.group call found)

def Visit.close (v : Visit) (found : List Story.Group) : Outcome :=
  proceed v.following (⟨v.name, v.variants.reverse⟩ :: found)

/-- Deals with what the search of a window came to: the end, a region or a variant call. -/
def onMark (text : String) (v : Visit) (found : List Story.Group) : Option Mark → Asking Outcome
  | none => return v.close found
  | some (.brace place) => do
      match ← askRegion text place.offset v.stop with
      | .error e => return .finished (.error e)
      | .ok next => return .next (.window { v with cursor := next.offset } found)
  | some (.call args) => do
      match ← askLiteral text args.offset with
      | .error e => return .finished (.error e)
      | .ok none => return .finished (.error (.missingVariantName args.offset))
      | .ok (some literal) =>
          if literal.value.isEmpty then return .finished (.error (.missingVariantName args.offset))
          else
            return .next (.window
              { v with
                cursor := literal.stop.offset
                variants := literal.value :: v.variants } found)

/-- One round of the loop over groups up to its window, or of the loop over variants. -/
def round (o : Options) (text : String) : Stage → Asking Outcome
  | .start => do
      let first ← askGroup o text 0
      return proceed (first.map Site.of) []
  | .group call found => do
      match ← askLiteral text call.args with
      | .error e => return .finished (.error e)
      | .ok none => return .finished (.error (.missingGroupName call.args))
      | .ok (some name) => do
          let following ← askGroup o text name.stop.offset
          let v : Visit :=
            { call
              name := name.value
              cursor := name.stop.offset
              stop := (following.map CallMatch.start).getD text.utf8ByteSize
              following := following.map Site.of
              variants := [] }
          return .next (.window v found)
  | .window v found =>
      if v.cursor < v.stop then do
        let mark ← askMark o text v.cursor v.stop
        onMark text v found mark
      else return v.close found

/-- The stages that the rounds come to. -/
inductive Reached (o : Options) (text : String) : Stage → Prop
  | start : Reached o text .start
  | next {s s' : Stage} {asked : List Request} : Reached o text s →
      round o text s [] = .ok (.next s', asked) → Reached o text s'

/-- From a stage on, finitely many rounds lead to a result. -/
inductive Finishes (o : Options) (text : String) :
    Stage → Except Error (List Story.Group) → Prop
  | now {s : Stage} {result : Except Error (List Story.Group)} {asked : List Request} :
      round o text s [] = .ok (.finished result, asked) → Finishes o text s result
  | later {s s' : Stage} {result : Except Error (List Story.Group)} {asked : List Request} :
      round o text s [] = .ok (.next s', asked) → Finishes o text s' result →
      Finishes o text s result

/-- How a round moves on: a window lies behind the arguments of its call, its cursor only moves
forward, and the next group starts after the one before it. -/
inductive Advances : Stage → Stage → Prop
  | first {call : Site} {found : List Story.Group} : Advances .start (.group call found)
  | enter {v : Visit} {found : List Story.Group} : v.call.args < v.cursor →
      Advances (.group v.call found) (.window v found)
  | onward {v w : Visit} {found : List Story.Group} : w.call = v.call → w.stop = v.stop →
      v.cursor < w.cursor → Advances (.window v found) (.window w found)
  | leave {v : Visit} {call : Site} {found found' : List Story.Group} :
      v.call.start < call.start → Advances (.window v found) (.group call found')

/-- What is left of a text of the given size behind a call. -/
def leftBehind (size : Nat) : Option Site → Nat
  | none => 0
  | some call => size + 1 - call.args

/-- What is left of a text of the given size: behind the grouping call that is next, and behind
the cursor in the window before it. -/
def Stage.left (size : Nat) : Stage → Nat × Nat
  | .start => (size + 2, 0)
  | .group call _ => (leftBehind size (some call), 0)
  | .window v _ => (leftBehind size v.following, size + 1 - v.cursor)

section Requests
variable {text : String} {c d : Cursor}

theorem ask_bind {α β : Type} {q : Request} {answer : Except OffsetError α} {a : α}
    (h : answer = .ok a) (f : α → Asking β) (asked : List Request) :
    (ask q answer >>= f) asked = f a (q :: asked) := by
  subst h
  rfl

theorem sound_one (hc : c.In text.toList) :
    c.offset ≤ text.utf8ByteSize ∧ Boundary text.toList c.offset :=
  ⟨offset_le_utf8ByteSize hc, c, hc, rfl⟩

theorem sound_two (hc : c.In text.toList) (hd : d.In text.toList) (h : c.offset ≤ d.offset) :
    c.offset ≤ d.offset ∧ d.offset ≤ text.utf8ByteSize ∧ Boundary text.toList c.offset ∧
      Boundary text.toList d.offset :=
  ⟨h, (sound_one hd).1, (sound_one hc).2, (sound_one hd).2⟩

end Requests

section Rounds
variable {o : Options} {text : String}

/-- What is found behind the window of a group whose variants are found. -/
def closing (o : Options) (text : String) (name : String) (following : Option CallMatch)
    (found : List Story.Group) : Except Error (List String) → Except Error (List Story.Group)
  | .error e => .error e
  | .ok variants =>
      match following with
      | none => .ok (⟨name, variants⟩ :: found).reverse
      | some m => collectGroups o (byteLength text.toList) m (⟨name, variants⟩ :: found)

/-- The grouping call after a window, if there is one, is a call of the text that starts after the
one of the window. -/
def Follows (text : String) (v : Visit) (following : Option CallMatch) : Prop :=
  v.following = following.map Site.of ∧
    ∀ m, following = some m → m.args.In text.toList ∧ m.start < m.args.offset ∧
      v.call.start < m.start

/-- A stage stands for a place in a run of the scan that ends with `result`: its offsets are those
of cursors, and the rest of the run starts at them. -/
inductive Tracks (o : Options) (text : String) :
    Stage → Except Error (List Story.Group) → Prop
  | start : Tracks o text .start (scanUnlimited o text)
  | group {m : CallMatch} {found : List Story.Group} : m.args.In text.toList →
      m.start < m.args.offset →
      Tracks o text (.group (Site.of m) found)
        (collectGroups o (byteLength text.toList) m found)
  | window {c d : Cursor} {v : Visit} {following : Option CallMatch} {found : List Story.Group} :
      c.In text.toList → v.cursor = c.offset → d.In text.toList → v.stop = d.offset →
      Follows text v following →
      Tracks o text (.window v found)
        (closing o text v.name following found
          (collectVariants o.variantPattern v.stop c v.variants))

/-- What one round does at a stage of a run: its requests are sound, and it ends the run or leads
to a later stage of it. -/
def Proceeds (o : Options) (text : String) (s : Stage)
    (result : Except Error (List Story.Group)) : Prop :=
  ∃ outcome asked, round o text s [] = .ok (outcome, asked) ∧ (∀ q ∈ asked, q.Sound text) ∧
    (outcome = .finished result ∨
      ∃ s', outcome = .next s' ∧ Tracks o text s' result ∧ Advances s s' ∧
        Prod.Lex (· < ·) (· < ·) (s'.left text.utf8ByteSize) (s.left text.utf8ByteSize))

theorem leftBehind_map_lt {size : Nat} {m : CallMatch} {following : Option CallMatch}
    (hm : m.args.offset ≤ size) (h : ∀ n, following = some n → m.args.offset < n.args.offset) :
    leftBehind size (following.map Site.of) < leftBehind size (some (Site.of m)) := by
  cases following with
  | none =>
      change 0 < size + 1 - m.args.offset
      omega
  | some n =>
      have hlt := h n rfl
      change size + 1 - n.args.offset < size + 1 - m.args.offset
      omega

theorem proceeds_start : Proceeds o text .start (scanUnlimited o text) := by
  have hstart := Cursor.In.start text.toList
  have hgroup := locateGroup_of_in o hstart
  have hsound : Request.Sound text (.group 0) := sound_one hstart
  refine ⟨_, [.group 0], ask_bind hgroup _ _, by simpa using hsound, ?_⟩
  rw [scanUnlimited]
  cases hfind : o.groupPattern.find? (byteLength text.toList) 0 text.toList with
  | none => exact .inl rfl
  | some m =>
      obtain ⟨hargs, -, hoccurs, -, -⟩ := CallPattern.first_of_find? hstart hfind
      refine .inr ⟨.group (Site.of m) [], rfl, .group hargs hoccurs.lt, .first, .left _ _ ?_⟩
      change text.utf8ByteSize + 1 - m.args.offset < text.utf8ByteSize + 2
      omega

theorem windowStop_eq {length : Nat} {c : Cursor} :
    windowStop o length c =
      ((o.groupPattern.find? length c.offset c.rest).map CallMatch.start).getD length := by
  rw [windowStop]
  cases o.groupPattern.find? length c.offset c.rest with
  | none => rfl
  | some m => rfl

theorem collectGroups_of_read? {m : CallMatch} {found : List Story.Group} {name : Literal}
    (hread : Literal.read? m.args = .ok (some name)) :
    collectGroups o (byteLength text.toList) m found =
      closing o text name.value
        (o.groupPattern.find? (byteLength text.toList) name.stop.offset name.stop.rest) found
        (collectVariants o.variantPattern (windowStop o (byteLength text.toList) name.stop)
          name.stop []) := by
  rw [collectGroups_eq, hread]
  rfl

theorem lt_stop_of_read? {c : Cursor} {l : Literal} (h : Literal.read? c = .ok (some l)) :
    c.offset < l.stop.offset := by
  obtain ⟨layout, w, -, ⟨q, contents, -, -, rfl⟩, hreads⟩ := Literal.read?_eq_ok_some_iff.mp h
  have hq := q.utf8Size_pos
  have hoffset := hreads.2
  simp only [Text.byteLength_append, Text.byteLength_cons] at hoffset
  omega

theorem proceeds_group {m : CallMatch} {found : List Story.Group} (hargs : m.args.In text.toList)
    (hlt : m.start < m.args.offset) :
    Proceeds o text (.group (Site.of m) found)
      (collectGroups o (byteLength text.toList) m found) := by
  have hliteral := readAt_of_in hargs
  have hsound : Request.Sound text (.literal m.args.offset) := sound_one hargs
  cases hread : Literal.read? m.args with
  | error e =>
      rw [hread] at hliteral
      rw [collectGroups_eq, hread]
      exact ⟨_, [.literal m.args.offset], ask_bind hliteral _ _, by simpa using hsound, .inl rfl⟩
  | ok outcome =>
      cases outcome with
      | none =>
          rw [hread] at hliteral
          rw [collectGroups_eq, hread]
          exact ⟨_, [.literal m.args.offset], ask_bind hliteral _ _, by simpa using hsound,
            .inl rfl⟩
      | some name =>
          rw [hread] at hliteral
          have hname := Literal.in_of_read? hargs hread
          have hgroup := locateGroup_of_in o hname
          have hahead := lt_stop_of_read? hread
          obtain ⟨after, hstop, -⟩ := @windowStop_in o text.toList name.stop hname
          rw [collectGroups_of_read? hread]
          generalize hfollowing :
            o.groupPattern.find? (byteLength text.toList) name.stop.offset name.stop.rest =
              following at hgroup ⊢
          have hlater : ∀ n, following = some n → n.args.In text.toList ∧
              n.start < n.args.offset ∧ name.stop.offset ≤ n.start := by
            rintro n rfl
            obtain ⟨hin, hle, hoccurs, -, -⟩ := CallPattern.first_of_find? hname hfollowing
            exact ⟨hin, hoccurs.lt, hle⟩
          have hends : windowStop o (byteLength text.toList) name.stop =
              (following.map CallMatch.start).getD text.utf8ByteSize := by
            rw [windowStop_eq, hfollowing, Text.byteLength_toList]
          refine ⟨_, [.group name.stop.offset, .literal m.args.offset],
            (ask_bind hliteral _ _).trans (ask_bind hgroup _ _), ?_, .inr ⟨_, rfl, ?_, ?_, ?_⟩⟩
          · have hsound' : Request.Sound text (.group name.stop.offset) := sound_one hname
            simpa using ⟨hsound', hsound⟩
          · rw [hends]
            refine .window hname rfl hstop hends.symm ⟨rfl, ?_⟩
            intro n hn
            obtain ⟨hin, hlt', hle⟩ := hlater n hn
            exact ⟨hin, hlt', Nat.lt_of_lt_of_le (Nat.lt_trans hlt hahead) hle⟩
          · exact Advances.enter (v := ⟨Site.of m, _, _, _, _, _⟩) hahead
          · refine .left _ _ (leftBehind_map_lt hsound.1 ?_)
            intro n hn
            obtain ⟨-, hlt', hle⟩ := hlater n hn
            omega

section Windows
variable {c d : Cursor} {v : Visit} {following : Option CallMatch} {found : List Story.Group}

theorem round_window (hlt : v.cursor < v.stop) :
    round o text (.window v found) =
      askMark o text v.cursor v.stop >>= onMark text v found :=
  if_pos hlt

theorem proceeds_close {asked : List Request} {result : Except Error (List Story.Group)}
    (hc : c.In text.toList) (hcursor : v.cursor = c.offset)
    (hfollowing : Follows text v following) (hasked : ∀ q ∈ asked, q.Sound text)
    (hround : round o text (.window v found) [] = .ok (v.close found, asked))
    (hresult : result = closing o text v.name following found (.ok v.variants.reverse)) :
    Proceeds o text (.window v found) result := by
  refine ⟨_, asked, hround, hasked, ?_⟩
  rw [hresult, Visit.close, hfollowing.1]
  cases following with
  | none => exact .inl rfl
  | some m =>
      obtain ⟨hargs, hlt, hlater⟩ := hfollowing.2 m rfl
      have hleft := (sound_one hc).1
      refine .inr ⟨_, rfl, .group hargs hlt, .leave hlater, ?_⟩
      rw [Stage.left, Stage.left, hfollowing.1, hcursor]
      refine .right _ ?_
      omega

/-- A round that moves the cursor of a window forward to another place. -/
theorem proceeds_onward {e : Cursor} {w : Visit} {asked : List Request}
    {result : Except Error (List Story.Group)} (hc : c.In text.toList)
    (hcursor : v.cursor = c.offset) (hd : d.In text.toList) (hstop : v.stop = d.offset)
    (hfollowing : Follows text v following) (hasked : ∀ q ∈ asked, q.Sound text)
    (hround : round o text (.window v found) [] = .ok (.next (.window w found), asked))
    (he : e.In text.toList) (hahead : c.offset < e.offset)
    (hw : w = { v with cursor := e.offset, variants := w.variants })
    (hresult : result = closing o text v.name following found
      (collectVariants o.variantPattern v.stop e w.variants)) :
    Proceeds o text (.window v found) result := by
  have hleft := (sound_one hc).1
  refine ⟨_, asked, hround, hasked, .inr ⟨_, rfl, ?_, ?_, ?_⟩⟩
  · rw [hresult, hw]
    exact .window he rfl hd hstop hfollowing
  · rw [hw]
    exact .onward rfl rfl (by rw [hcursor]; exact hahead)
  · rw [hw]
    refine .right _ ?_
    rw [hcursor]
    change text.utf8ByteSize + 1 - e.offset < text.utf8ByteSize + 1 - c.offset
    omega

/-- A round that comes to an opening brace. -/
theorem proceeds_brace {place : Cursor} {tail : List Char} {asked : List Request}
    (hc : c.In text.toList) (hcursor : v.cursor = c.offset) (hd : d.In text.toList)
    (hstop : v.stop = d.offset) (hfollowing : Follows text v following)
    (hasked : ∀ q ∈ asked, q.Sound text)
    (hround : round o text (.window v found) [] = onMark text v found (some (.brace place)) asked)
    (hin : place.In text.toList) (hopen : place.rest = '{' :: tail)
    (hbehind : c.offset ≤ place.offset) (hbefore : place.offset ≤ d.offset) :
    Proceeds o text (.window v found)
      (closing o text v.name following found
        (match matchBrace v.stop place with
        | .error e => .error e
        | .ok next => collectVariants o.variantPattern v.stop next v.variants)) := by
  have hask := matchBraceIn_of_in hin hd hbefore
  have hsound : Request.Sound text (.region place.offset v.stop) := by
    rw [hstop]
    exact sound_two hin hd hbefore
  have hasked' : ∀ q ∈ Request.region place.offset v.stop :: asked, q.Sound text :=
    List.forall_mem_cons.mpr ⟨hsound, hasked⟩
  rw [← hstop] at hask
  have hanswer := hround.trans (ask_bind hask _ _)
  cases hclose : matchBrace v.stop place with
  | error e =>
      rw [hclose] at hanswer
      exact ⟨_, _, hanswer, hasked', .inl rfl⟩
  | ok next =>
      rw [hclose] at hanswer
      obtain ⟨w, hw, hread, -⟩ := (matchBrace_eq_ok_iff hopen).mp hclose
      have hahead : c.offset < next.offset := by
        have hpos := hw.byteLength_pos
        have hoffset := hread.2
        omega
      exact proceeds_onward hc hcursor hd hstop hfollowing hasked' hanswer (hin.reads hread)
        hahead rfl rfl

/-- A round that comes to a variant call. -/
theorem proceeds_call {args : Cursor} {asked : List Request} (hc : c.In text.toList)
    (hcursor : v.cursor = c.offset) (hd : d.In text.toList) (hstop : v.stop = d.offset)
    (hfollowing : Follows text v following) (hasked : ∀ q ∈ asked, q.Sound text)
    (hround : round o text (.window v found) [] = onMark text v found (some (.call args)) asked)
    (hin : args.In text.toList) (hbehind : c.offset ≤ args.offset) :
    Proceeds o text (.window v found)
      (closing o text v.name following found
        (match Literal.read? args with
        | .error e => .error e
        | .ok none => .error (.missingVariantName args.offset)
        | .ok (some literal) =>
            if literal.value.isEmpty then .error (.missingVariantName args.offset)
            else collectVariants o.variantPattern v.stop literal.stop
              (literal.value :: v.variants))) := by
  have hask := readAt_of_in hin
  have hsound : Request.Sound text (.literal args.offset) := sound_one hin
  have hasked' : ∀ q ∈ Request.literal args.offset :: asked, q.Sound text :=
    List.forall_mem_cons.mpr ⟨hsound, hasked⟩
  have hanswer := hround.trans (ask_bind hask _ _)
  cases hread : Literal.read? args with
  | error e =>
      rw [hread] at hanswer
      exact ⟨_, _, hanswer, hasked', .inl rfl⟩
  | ok outcome =>
      rw [hread] at hanswer
      cases outcome with
      | none => exact ⟨_, _, hanswer, hasked', .inl rfl⟩
      | some literal =>
          by_cases hempty : literal.value.isEmpty = true
          · simp only [hempty, if_true] at hanswer ⊢
            exact ⟨_, _, hanswer, hasked', .inl rfl⟩
          · simp only [hempty] at hanswer ⊢
            have hahead := lt_stop_of_read? hread
            exact proceeds_onward hc hcursor hd hstop hfollowing hasked' hanswer
              (Literal.in_of_read? hin hread) (by omega) rfl rfl

theorem proceeds_window (hc : c.In text.toList) (hcursor : v.cursor = c.offset)
    (hd : d.In text.toList) (hstop : v.stop = d.offset) (hfollowing : Follows text v following) :
    Proceeds o text (.window v found)
      (closing o text v.name following found
        (collectVariants o.variantPattern v.stop c v.variants)) := by
  rw [collectVariants_eq]
  by_cases hlt : c.offset < v.stop
  · have hle : c.offset ≤ d.offset := by omega
    have hask := markIn?_of_in o.variantPattern hc hd hle
    have hmarked := marked_mark? (p := o.variantPattern) hc hd hle
    have hasked : ∀ q ∈ [Request.mark c.offset v.stop], q.Sound text := by
      rw [hstop]
      exact List.forall_mem_singleton.mpr (sound_two hc hd hle)
    rw [← hstop] at hask hmarked
    have hround : round o text (.window v found) [] =
        onMark text v found (mark? o.variantPattern v.stop c.offset c.rest)
          [.mark c.offset v.stop] := by
      rw [round_window (by omega), hcursor]
      exact ask_bind hask _ _
    rw [if_pos hlt]
    cases hfound : mark? o.variantPattern v.stop c.offset c.rest with
    | none =>
        rw [hfound] at hround
        exact proceeds_close hc hcursor hfollowing hasked hround rfl
    | some mark =>
        rw [hfound] at hround hmarked
        cases hmarked with
        | brace hin hgap hbefore hopen =>
            exact proceeds_brace hc hcursor hd hstop hfollowing hasked hround hin hopen hgap.le
              (by omega)
        | call hin hgap hoccurs hfits =>
            have hcall := hoccurs.lt
            have hgap' := hgap.le
            exact proceeds_call hc hcursor hd hstop hfollowing hasked hround hin (by omega)
  · refine proceeds_close hc hcursor hfollowing (List.forall_mem_nil _) ?_ ?_
    · rw [round, if_neg (by omega)]
      rfl
    · rw [if_neg hlt]

end Windows

theorem proceeds_of_tracks {s : Stage} {result : Except Error (List Story.Group)}
    (h : Tracks o text s result) : Proceeds o text s result := by
  cases h with
  | start => exact proceeds_start
  | group hargs hlt => exact proceeds_group hargs hlt
  | window hc hcursor hd hstop hfollowing =>
      exact proceeds_window hc hcursor hd hstop hfollowing

theorem tracks_of_reached {s : Stage} (h : Reached o text s) :
    Tracks o text s (scanUnlimited o text) := by
  induction h with
  | start => exact .start
  | next _ hround ih =>
      obtain ⟨outcome, asked, hround', -, hnext⟩ := proceeds_of_tracks ih
      rw [hround] at hround'
      cases hround'
      rcases hnext with hdone | ⟨s', hs', htracks, -, -⟩
      · cases hdone
      · cases hs'
        exact htracks

theorem finishes_of_tracks {s : Stage} {result : Except Error (List Story.Group)}
    (h : Tracks o text s result) : Finishes o text s result := by
  induction hleft : s.left text.utf8ByteSize using
    (Prod.lex Nat.lt_wfRel Nat.lt_wfRel).wf.induction generalizing s with
  | h left ih =>
      subst hleft
      obtain ⟨outcome, asked, hround, -, hnext⟩ := proceeds_of_tracks h
      rcases hnext with rfl | ⟨s', rfl, htracks, -, hless⟩
      · exact .now hround
      · exact .later hround (ih _ hless htracks rfl)

end Rounds

/-- At every stage that is reached, the round goes through, its requests delimit parts of the
text, and if it is not the last one it moves on and leaves less to do. The rounds come to an end
with what the scan gives, unless the text is longer than the limit: then there are none. -/
theorem rounds_sound_and_finish (o : Options) (text : String) :
    (∀ s, Reached o text s → ∃ outcome asked, round o text s [] = .ok (outcome, asked) ∧
      (∀ q ∈ asked, q.Sound text) ∧
      ∀ s', outcome = .next s' → Advances s s' ∧
        Prod.Lex (· < ·) (· < ·) (s'.left text.utf8ByteSize) (s.left text.utf8ByteSize)) ∧
    (o.Admits text ∧ Finishes o text .start (scan o text) ∨
      ∃ limit, o.maxInputLength = some limit ∧ limit.toNat < text.utf8ByteSize ∧
        scan o text = .error (.inputTooLarge text.utf8ByteSize limit.toNat)) := by
  constructor
  · intro s hs
    obtain ⟨outcome, asked, hround, hsound, hnext⟩ := proceeds_of_tracks (tracks_of_reached hs)
    refine ⟨outcome, asked, hround, hsound, ?_⟩
    rintro s' rfl
    rcases hnext with hdone | ⟨t, ht, -, hadvances, hless⟩
    · cases hdone
    · cases ht
      exact ⟨hadvances, hless⟩
  · by_cases hadmits : o.Admits text
    · refine .inl ⟨hadmits, ?_⟩
      rw [scan_eq_scanUnlimited hadmits]
      exact finishes_of_tracks .start
    · simp only [Options.Admits, Classical.not_forall, Nat.not_le] at hadmits
      obtain ⟨limit, hlimit, hlong⟩ := hadmits
      refine .inr ⟨limit, hlimit, hlong, ?_⟩
      rw [scan, hlimit]
      exact if_pos hlong

end Docset.Scan.Stepwise
