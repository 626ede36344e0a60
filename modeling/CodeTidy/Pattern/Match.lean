import CodeTidy.Pattern.Basic

/-!
# `CodeTidy.Pattern.Match`: matching a pattern at a place

`Pattern.run?` walks a pattern with a continuation: each way to match the
pattern at a cursor is offered, in order, to the continuation, and the first
answer it gives is the answer. The walk is by recursion on the pattern; a
repetition is bounded by the text that is left, because each of its rounds
takes at least one character.
-/

set_option autoImplicit false

namespace CodeTidy

/-- The stretch between two places of one text. -/
structure Capture where
  start : Cursor
  stop : Cursor
  deriving Repr

/-- The characters of the stretch. -/
def Capture.text (c : Capture) : Text := c.start.after.take (c.stop.pos - c.start.pos)

/-- What the groups have matched so far, newest first. -/
abbrev Captures := List (Nat × Capture)

namespace Pattern

/-- Offers the cursor to `k`, then the cursors before it, so many steps back at most. -/
def backOff {α : Type} (k : Cursor → Option α) : Nat → Cursor → Option α
  | 0, c => k c
  | n + 1, c =>
    match k c with
    | some a => some a
    | none => backOff k n c.back

/-- The number of leading characters of the set and the place after them. -/
def runEnd (set : CharSet) (before : Text) (pos count : Nat) : Text → Nat × Cursor
  | [] => (count, ⟨before, [], pos⟩)
  | a :: r =>
    if set a then runEnd set (a :: before) (pos + 1) (count + 1) r
    else (count, ⟨before, a :: r, pos⟩)

/-- A run of characters of the set, longest first. -/
def runMost {α : Type} (set : CharSet) (least : Nat) (c : Cursor) (k : Cursor → Option α) :
    Option α :=
  let (count, far) := runEnd set c.before c.pos 0 c.after
  if count < least then none else backOff k (count - least) far

/-- A run of characters of the set, shortest first; `least` characters are still owed. -/
def runLeast {α : Type} (set : CharSet) (k : Cursor → Option α) :
    (least : Nat) → (before : Text) → (pos : Nat) → Text → Option α
  | 0, before, pos, [] => k ⟨before, [], pos⟩
  | _ + 1, _, _, [] => none
  | 0, before, pos, a :: r =>
    match k ⟨before, a :: r, pos⟩ with
    | some x => some x
    | none => if set a then runLeast set k 0 (a :: before) (pos + 1) r else none
  | least + 1, before, pos, a :: r =>
    if set a then runLeast set k least (a :: before) (pos + 1) r else none

/-- A way to match: from a cursor and what is remembered to the first answer of a continuation. -/
abbrev Way (α : Type) :=
  Cursor → Captures → (Cursor → Captures → Option α) → Option α

/-- Rounds of `step`, most first; the text `left` bounds them. -/
def starMost {α : Type} (step : Way α) (k : Cursor → Captures → Option α) :
    (left : Text) → Cursor → Captures → Option α
  | [], c, caps => k c caps
  | _ :: left, c, caps =>
    match step c caps (fun c' caps' =>
        if c.pos < c'.pos then starMost step k left c' caps' else none) with
    | some a => some a
    | none => k c caps

/-- Rounds of `step`, fewest first; the text `left` bounds them. -/
def starLeast {α : Type} (step : Way α) (k : Cursor → Captures → Option α) :
    (left : Text) → Cursor → Captures → Option α
  | [], c, caps => k c caps
  | _ :: left, c, caps =>
    match k c caps with
    | some a => some a
    | none => step c caps (fun c' caps' =>
        if c.pos < c'.pos then starLeast step k left c' caps' else none)

/-- The places that rounds of `step` lead to, the last one first. -/
def roundEnds (step : Cursor → Captures → Option (Cursor × Captures)) :
    (left : Text) → Cursor → Captures → List (Cursor × Captures) → List (Cursor × Captures)
  | [], c, caps, seen => (c, caps) :: seen
  | _ :: left, c, caps, seen =>
    match step c caps with
    | none => (c, caps) :: seen
    | some (c', caps') =>
      if c.pos < c'.pos then roundEnds step left c' caps' ((c, caps) :: seen)
      else (c, caps) :: seen

/-- Rounds of `step`, fewest first. -/
def roundsLeast {α : Type} (step : Cursor → Captures → Option (Cursor × Captures))
    (k : Cursor → Captures → Option α) : (left : Text) → Cursor → Captures → Option α
  | [], c, caps => k c caps
  | _ :: left, c, caps =>
    match k c caps with
    | some a => some a
    | none =>
      match step c caps with
      | none => none
      | some (c', caps') => if c.pos < c'.pos then roundsLeast step k left c' caps' else none

/-- The place after `t`, if the text at the cursor begins with it. -/
def passText : Text → Cursor → Option Cursor
  | [], c => some c
  | a :: r, ⟨before, after, pos⟩ =>
    match after with
    | [] => none
    | b :: rest => if a == b then passText r ⟨b :: before, rest, pos + 1⟩ else none

/-- The continuation that takes the first way to match. -/
def first (c : Cursor) (caps : Captures) : Option (Cursor × Captures) := some (c, caps)

/-- The first answer of `k` over the ways to match the pattern at the cursor. -/
def run? : Pattern → {α : Type} → Way α
  | .empty, _, c, caps, k => k c caps
  | .one set, _, c, caps, k =>
    match c.next? with
    | none => none
    | some (a, c') => if set a then k c' caps else none
  | .both p q, _, c, caps, k => run? p c caps (fun c' caps' => run? q c' caps' k)
  | .either p q, _, c, caps, k =>
    match run? p c caps k with
    | some a => some a
    | none => run? q c caps k
  | .run .most least set, _, c, caps, k => runMost set least c (fun c' => k c' caps)
  | .run .least least set, _, c, caps, k =>
    runLeast set (fun c' => k c' caps) least c.before c.pos c.after
  | .star .most body, _, c, caps, k => starMost (run? body) k c.after c caps
  | .star .least body, _, c, caps, k => starLeast (run? body) k c.after c caps
  | .rounds .most body, _, c, caps, k =>
    (roundEnds (fun c caps => run? body c caps first) c.after c caps []).findSome?
      (fun (c', caps') => k c' caps')
  | .rounds .least body, _, c, caps, k =>
    roundsLeast (fun c caps => run? body c caps first) k c.after c caps
  | .group n body, _, c, caps, k => run? body c caps (fun c' caps' => k c' ((n, ⟨c, c'⟩) :: caps'))
  | .again n, _, c, caps, k =>
    match caps.lookup n with
    | none => none
    | some capture =>
      match passText capture.text c with
      | none => none
      | some c' => k c' caps
  | .place condition, _, c, caps, k => if condition c then k c caps else none
  | .ahead body, _, c, caps, k =>
    match run? body c caps first with
    | none => none
    | some (_, caps') => k c caps'
  | .notAhead body, _, c, caps, k =>
    match run? body c caps first with
    | none => k c caps
    | some _ => none

end Pattern

end CodeTidy
