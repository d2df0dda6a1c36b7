import SymbolIndex.Pattern.Basic

/-!
# Searching for patterns

A pattern is followed through a text by its beginnings: the first characters that it may begin with,
each with the pattern that is left behind it, in the order in which they are to be tried. The first
match in the text counts, and of the matches at one place the one that is tried first.

* `Pattern.beginnings`: how a pattern may begin at a place;
* `Pattern.matchLength`: the length of the match at a place;
* `Pattern.isFound`, `Pattern.findAll`: whether a text has a match, and all matches that do not
  overlap;
* `Pattern.fits`: whether a pattern fits a whole text.
-/

namespace SymbolIndex.Pattern

/-- How a pattern may begin: with nothing more to come, or with a character and what follows. -/
inductive Beginning where
  | done
  | eat (cls : CharClass) (rest : Pattern)
  deriving DecidableEq, Repr

/-- The beginnings without a second `done`, as only the first one counts. -/
def onceDone : List Beginning → List Beginning
  | [] => []
  | .done :: rest => .done :: rest.filter (· != .done)
  | b :: rest => b :: onceDone rest

/-- The beginnings with `more` behind their rests, and with other ones in the place of `done`. -/
def continued (more : Pattern) (instead : Unit → List Beginning) (bs : List Beginning) :
    List Beginning :=
  onceDone <| bs.flatMap fun
    | .done => instead ()
    | .eat cls rest => [.eat cls (rest.followedBy more)]

/-- The beginnings and the end of a repetition, in the order that greed asks for. -/
def orDone (greedy : Bool) (bs : List Beginning) : List Beginning :=
  onceDone (if greedy then bs ++ [.done] else .done :: bs)

/-- The beginnings of at most `n` rounds of `p`, whose own beginnings are `round`. -/
def atMost (greedy : Bool) (p : Pattern) (round : List Beginning) : Nat → List Beginning
  | 0 => [.done]
  | n + 1 =>
    orDone greedy <|
      continued (.repeat 0 (some n) greedy p) (fun _ => atMost greedy p round n) round

/-- The beginnings of `n` rounds that begin with `round` and of what follows them: `rest n` is the
pattern of `n` rounds and what follows, and `last` holds the beginnings of what follows. -/
def exactly (rest : Nat → Pattern) (round last : List Beginning) : Nat → List Beginning
  | 0 => last
  | n + 1 => continued (rest n) (fun _ => exactly rest round last n) round

/-- The beginnings of a pattern between two characters. A round of an unlimited repetition that fits
nothing ends the repetition. -/
def beginnings (before after : Option Char) : Pattern → List Beginning
  | empty => [.done]
  | char cls => [.eat cls empty]
  | look l => if l.holds before after then [.done] else []
  | seq a b => continued b (fun _ => b.beginnings before after) (a.beginnings before after)
  | alt a b => onceDone (a.beginnings before after ++ b.beginnings before after)
  | .repeat least (some most) greedy p =>
    let round := p.beginnings before after
    exactly (fun n => .repeat n (some (n + (most - least))) greedy p) round
      (atMost greedy p round (most - least)) least
  | .repeat 0 none greedy p =>
    orDone greedy (continued (.again greedy p) (fun _ => [.done]) (p.beginnings before after))
  | .repeat (least + 1) none greedy p =>
    exactly (fun n => if n = 0 then .again greedy p else .repeat n none greedy p)
      (p.beginnings before after) [.done] (least + 1)
  | again greedy p =>
    orDone greedy (continued (.again greedy p) (fun _ => []) (p.beginnings before after))

/-- The beginnings up to the first `done`, and whether there is one. -/
def untilDone : List Beginning → List (CharClass × Pattern) × Bool
  | [] => ([], false)
  | .done :: _ => ([], true)
  | .eat cls rest :: bs =>
    let (eats, found) := untilDone bs
    ((cls, rest) :: eats, found)

/-- What is left of the patterns behind the character `c`. -/
def behind (c : Char) (eats : List (CharClass × Pattern)) : List Pattern :=
  ((eats.filter fun eat => eat.1.contains c).map (·.2)).eraseDups

/-- The length of the match of the patterns at a place, the earlier pattern rather than the later,
when `length` characters have been read and the best match so far is `best`. -/
def matchLengthFrom (before : Option Char) (length : Nat) (best : Option Nat) (ps : List Pattern) :
    List Char → Option Nat
  | [] => if (untilDone (ps.flatMap (beginnings before none))).2 then some length else best
  | c :: text =>
    let (eats, found) := untilDone (ps.flatMap (beginnings before (some c)))
    let best := if found then some length else best
    match behind c eats with
    | [] => best
    | left => matchLengthFrom (some c) (length + 1) best left text

/-- The length of the match at a place, if there is one. -/
def matchLength (p : Pattern) (before : Option Char) (text : List Char) : Option Nat :=
  matchLengthFrom before 0 none [p] text

/-- The pattern has a match at this place or a later one. -/
def isFoundFrom (p : Pattern) (before : Option Char) : List Char → Bool
  | [] => (p.matchLength before []).isSome
  | c :: text => (p.matchLength before (c :: text)).isSome || isFoundFrom p (some c) text

/-- The pattern has a match somewhere in the text. -/
def isFound (p : Pattern) (text : List Char) : Bool := p.isFoundFrom none text

/-- The matches from a place on, behind `skip` more characters of the match before. An empty match
does not count right where another one `ended`. -/
def findAllFrom (p : Pattern) (before : Option Char) (skip : Nat) (ended : Bool) :
    List Char → List (List Char)
  | [] => if p.matchLength before [] = some 0 ∧ ended = false then [[]] else []
  | c :: text =>
    match skip with
    | skip + 1 => findAllFrom p (some c) skip (skip == 0) text
    | 0 =>
      match p.matchLength before (c :: text) with
      | none => findAllFrom p (some c) 0 false text
      | some 0 =>
        if ended then findAllFrom p (some c) 0 false text
        else [] :: findAllFrom p (some c) 0 false text
      | some (length + 1) =>
        (c :: text).take (length + 1) :: findAllFrom p (some c) length (length == 0) text

/-- The matches of the pattern in the text, one behind the other. -/
def findAll (p : Pattern) (text : List Char) : List (List Char) := p.findAllFrom none 0 false text

/-- One of the patterns fits the whole text. -/
def fitsFrom (before : Option Char) (ps : List Pattern) : List Char → Bool
  | [] => (ps.flatMap (beginnings before none)).contains .done
  | c :: text =>
    let eats := (ps.flatMap (beginnings before (some c))).filterMap fun
      | .done => none
      | .eat cls rest => some (cls, rest)
    fitsFrom (some c) (behind c eats) text

/-- The pattern fits the whole text. -/
def fits (p : Pattern) (text : List Char) : Bool := fitsFrom none [p] text

end SymbolIndex.Pattern
