import CodeTidy.Pattern.Match

/-!
# `CodeTidy.Pattern.Search`: the matches of a pattern in a text

`Pattern.hits` lists the matches in a text from left to right and without
overlap: at each place that no match before covers, the pattern is tried.
`Pattern.segments` cuts the text into the matches and the gaps between them,
and replacing, splitting and counting are read off from that.

An empty match does not end the search at its place: a non-empty match may
still start there.
-/

set_option autoImplicit false

namespace CodeTidy

/-- A place where a pattern matches, and what its groups match there. -/
structure Match where
  start : Cursor
  stop : Cursor
  groups : Captures
  deriving Repr

namespace Match

/-- The number of characters matched. -/
def length (m : Match) : Nat := m.stop.pos - m.start.pos

/-- The characters matched. -/
def text (m : Match) : Text := m.start.after.take m.length

/-- What group `n` matched, if it took part. -/
def group? (m : Match) (n : Nat) : Option Text := (m.groups.lookup n).map Capture.text

/-- What group `n` matched; nothing if it took no part. -/
def group (m : Match) (n : Nat) : Text := (m.group? n).getD []

/-- Where group `n` starts; the start of the match if the group took no part. -/
def groupStart (m : Match) (n : Nat) : Nat :=
  ((m.groups.lookup n).map (fun c => c.start.pos)).getD m.start.pos

/-- Where group `n` stops; the start of the match if the group took no part. -/
def groupStop (m : Match) (n : Nat) : Nat :=
  ((m.groups.lookup n).map (fun c => c.stop.pos)).getD m.start.pos

/-- The text before the match without the white space at its end, reversed. -/
def leftContext (m : Match) : Text := m.start.before.dropWhile Text.isBlank

/-- The part of the first line of the match that stands before it. -/
def lineBefore (m : Match) : Text := (m.start.before.takeWhile (· != '\n')).reverse

end Match

/-- A piece of a text that a pattern has been searched in. -/
inductive Segment where
  | gap (t : Text)
  | hit (m : Match)
  deriving Repr

/-- The characters of the piece. -/
def Segment.text : Segment → Text
  | .gap t => t
  | .hit m => m.text

namespace Pattern

/-- The first way to match the pattern at the place. -/
def matchAt? (p : Pattern) (c : Cursor) : Option Match :=
  run? p c [] (fun c' groups => some ⟨c, c', groups⟩)

/-- The first way to match at least one character at the place. -/
def matchSomeAt? (p : Pattern) (c : Cursor) : Option Match :=
  run? p c [] (fun c' groups => if c.pos < c'.pos then some ⟨c, c', groups⟩ else none)

/-- The match at the start of the text. -/
def matchStart? (p : Pattern) (t : Text) : Option Match := p.matchAt? (Cursor.start t)

/-- The match that takes the whole text. -/
def matchWhole? (p : Pattern) (t : Text) : Option Match :=
  let c := Cursor.start t
  run? p c [] (fun c' groups => if c'.after.isEmpty then some ⟨c, c', groups⟩ else none)

/-- Whether the pattern matches the whole text. -/
def isWhole (p : Pattern) (t : Text) : Bool := (p.matchWhole? t).isSome

/-- Whether the pattern matches at the start of the text. -/
def isStart (p : Pattern) (t : Text) : Bool := (p.matchStart? t).isSome

/-- The matches from a place on; `skip` characters are still covered by the match before. -/
def hitsFrom (p : Pattern) : (before : Text) → (pos skip : Nat) → (after : Text) → List Match
  | _, _, _ + 1, [] => []
  | before, pos, 0, [] => (p.matchAt? ⟨before, [], pos⟩).toList
  | before, pos, skip + 1, a :: r => hitsFrom p (a :: before) (pos + 1) skip r
  | before, pos, 0, a :: r =>
    let c : Cursor := ⟨before, a :: r, pos⟩
    match p.matchAt? c with
    | none => hitsFrom p (a :: before) (pos + 1) 0 r
    | some m =>
      if m.length = 0 then
        match p.matchSomeAt? c with
        | none => m :: hitsFrom p (a :: before) (pos + 1) 0 r
        | some m' => m :: m' :: hitsFrom p (a :: before) (pos + 1) (m'.length - 1) r
      else m :: hitsFrom p (a :: before) (pos + 1) (m.length - 1) r

/-- The matches in the text, from left to right and without overlap. -/
def hits (p : Pattern) (t : Text) : List Match := hitsFrom p [] 0 0 t

/-- The first match from a place on. -/
def findFrom? (p : Pattern) : (before : Text) → (pos : Nat) → (after : Text) → Option Match
  | before, pos, [] => p.matchAt? ⟨before, [], pos⟩
  | before, pos, a :: r =>
    match p.matchAt? ⟨before, a :: r, pos⟩ with
    | some m => some m
    | none => findFrom? p (a :: before) (pos + 1) r

/-- The first match in the text. -/
def find? (p : Pattern) (t : Text) : Option Match := findFrom? p [] 0 t

/-- Whether the pattern matches somewhere in the text. -/
def occursIn (p : Pattern) (t : Text) : Bool := (p.find? t).isSome

/-- The number of matches in the text. -/
def count (p : Pattern) (t : Text) : Nat := (p.hits t).length

/-- The rest of a text, from position `pos` on, cut at the matches. -/
def weave : (pos : Nat) → Text → List Match → List Segment
  | _, rest, [] => [.gap rest]
  | pos, rest, m :: ms =>
    .gap (rest.take (m.start.pos - pos)) :: .hit m ::
      weave m.stop.pos (rest.drop (m.stop.pos - pos)) ms

/-- The text cut into the matches and the gaps before, between and after them. -/
def segments (p : Pattern) (t : Text) : List Segment := weave 0 t (p.hits t)

/-- The gaps before, between and after the matches. -/
def gaps (p : Pattern) (t : Text) : List Text :=
  (p.segments t).filterMap (fun s => match s with
    | .gap t => some t
    | .hit _ => none)

/-- The text with `f` of each match in its place. -/
def replace (p : Pattern) (f : Match → Text) (t : Text) : Text :=
  (p.segments t).flatMap (fun s => match s with
    | .gap t => t
    | .hit m => f m)

/-- The text with `f` of each match in its place, unless `f` fails at one: then the first
failure. -/
def replaceM {ε : Type} (p : Pattern) (f : Match → Except ε Text) (t : Text) : Except ε Text := do
  let pieces ← (p.segments t).mapM (fun s => match s with
    | .gap t => pure t
    | .hit m => f m)
  return pieces.flatten

/-- The text with `f` of the first match in its place. -/
def replaceFirst (p : Pattern) (f : Match → Text) (t : Text) : Text :=
  match p.find? t with
  | none => t
  | some m => t.take m.start.pos ++ f m ++ m.stop.after

end Pattern

end CodeTidy
