import SymbolIndex.Pattern.Basic
import SymbolIndex.Text.Ascii

/-!
# Properties by name

The names of the properties of characters. Letter case, blanks, underscores and hyphens in a name
mean nothing, and neither does an `is` in front of it.

* `looseName`: a name without what means nothing;
* `categoryClass?`, `scriptClass?`, `propertyClass?`: the classes of names;
* `namedClass?`, `valuedClass?`: the class of a property, and of a value of a property.
-/

namespace SymbolIndex.Pattern

open Text (Category WritingSystem)

/-- A name without what means nothing in it. -/
def looseName (name : List Char) : String :=
  let lower := name.map Text.lower
  let bare := if ['i', 's'].isPrefixOf lower then lower.drop 2 else lower
  let kept := bare.filter fun c => c != ' ' && c != '_' && c != '-' && c.toNat < 0x80
  if kept = ['c'] ∧ bare ≠ lower then "isc" else String.ofList kept

def ofCategories (cs : List Category) : CharClass :=
  cs.foldr (fun c rest => .union (.category c) rest) .nothing

/-- All code points that something is assigned to. -/
def assigned : CharClass :=
  ofCategories [.lu, .ll, .lt, .lm, .lo, .mn, .mc, .me, .nd, .nl, .no, .pc, .pd, .ps, .pe, .pi, .pf,
    .po, .sm, .sc, .sk, .so, .zs, .zl, .zp, .cc, .cf, .co]

/-- The class of a category, or of a group of categories. -/
def categoryClass? (name : String) : Option CharClass :=
  let one (c : Category) := some (CharClass.category c)
  let group (cs : List Category) := some (ofCategories cs)
  match name with
  | "any" => some (.negated .nothing)
  | "assigned" => some assigned
  | "ascii" => some .ascii
  | "l" | "letter" => group [.lu, .ll, .lt, .lm, .lo]
  | "lc" | "casedletter" => group [.lu, .ll, .lt]
  | "lu" | "uppercaseletter" => one .lu
  | "ll" | "lowercaseletter" => one .ll
  | "lt" | "titlecaseletter" => one .lt
  | "lm" | "modifierletter" => one .lm
  | "lo" | "otherletter" => one .lo
  | "m" | "mark" | "combiningmark" => group [.mn, .mc, .me]
  | "mn" | "nonspacingmark" => one .mn
  | "mc" | "spacingmark" => one .mc
  | "me" | "enclosingmark" => one .me
  | "n" | "number" => group [.nd, .nl, .no]
  | "nd" | "decimalnumber" | "digit" => one .nd
  | "nl" | "letternumber" => one .nl
  | "no" | "othernumber" => one .no
  | "p" | "punctuation" | "punct" => group [.pc, .pd, .ps, .pe, .pi, .pf, .po]
  | "pc" | "connectorpunctuation" => one .pc
  | "pd" | "dashpunctuation" => one .pd
  | "ps" | "openpunctuation" => one .ps
  | "pe" | "closepunctuation" => one .pe
  | "pi" | "initialpunctuation" => one .pi
  | "pf" | "finalpunctuation" => one .pf
  | "po" | "otherpunctuation" => one .po
  | "s" | "symbol" => group [.sm, .sc, .sk, .so]
  | "sm" | "mathsymbol" => one .sm
  | "sc" | "currencysymbol" => one .sc
  | "sk" | "modifiersymbol" => one .sk
  | "so" | "othersymbol" => one .so
  | "z" | "separator" => group [.zs, .zl, .zp]
  | "zs" | "spaceseparator" => one .zs
  | "zl" | "lineseparator" => one .zl
  | "zp" | "paragraphseparator" => one .zp
  | "c" | "other" => some (.union (ofCategories [.cc, .cf, .co]) (.negated assigned))
  | "cc" | "control" | "cntrl" => one .cc
  | "cf" | "format" => one .cf
  | "co" | "privateuse" => one .co
  | "cn" | "unassigned" => some (.negated assigned)
  | "cs" | "surrogate" => some .nothing
  | _ => none

def scriptClass? (name : String) : Option CharClass :=
  let one (s : WritingSystem) := some (CharClass.script s)
  match name with
  | "latin" | "latn" => one .latin
  | "greek" | "grek" => one .greek
  | "cyrillic" | "cyrl" => one .cyrillic
  | "armenian" | "armn" => one .armenian
  | "hebrew" | "hebr" => one .hebrew
  | "arabic" | "arab" => one .arabic
  | "devanagari" | "deva" => one .devanagari
  | "thai" => one .thai
  | "georgian" | "geor" => one .georgian
  | "hangul" | "hang" => one .hangul
  | "hiragana" | "hira" => one .hiragana
  | "katakana" | "kana" => one .katakana
  | "han" | "hani" => one .han
  | _ => none

/-- The class of a property that characters have or do not have. -/
def propertyClass? (name : String) : Option CharClass :=
  let letters := [('a', 'f'), ('A', 'F'), ('0', '9')]
  match name with
  | "alphabetic" | "alpha" => some .alphabetic
  | "lowercase" | "lower" => some .lowercase
  | "uppercase" | "upper" => some .uppercase
  | "whitespace" | "wspace" | "space" => some .blank
  | "asciihexdigit" | "ahex" => some (.ofRanges letters)
  | "hexdigit" | "hex" =>
    some (.ofRanges (letters ++ [('０', '９'), ('Ａ', 'Ｆ'), ('ａ', 'ｆ')]))
  | _ => none

/-- The class of the name of a property, a category or a script. -/
def namedClass? (name : List Char) : Option CharClass :=
  let name := looseName name
  (propertyClass? name).orElse fun _ => (categoryClass? name).orElse fun _ => scriptClass? name

def valuedClass? (property value : List Char) : Option CharClass :=
  match looseName property with
  | "generalcategory" | "gc" => categoryClass? (looseName value)
  | "script" | "sc" | "scriptextensions" | "scx" => scriptClass? (looseName value)
  | _ => none

/-- A text before and after the first place where another one occurs in it. -/
def cutAt? (mark : List Char) : List Char → Option (List Char × List Char)
  | [] => none
  | c :: rest =>
    if mark.isPrefixOf (c :: rest) then some ([], (c :: rest).drop mark.length)
    else (cutAt? mark rest).map fun (before, after) => (c :: before, after)

/-- The class that stands between braces, and whether it is turned around. -/
def bracedClass? (s : List Char) : Option (CharClass × Bool) :=
  match cutAt? ['!', '='] s, cutAt? [':'] s, cutAt? ['='] s with
  | some (property, value), _, _ => (valuedClass? property value).map (·, true)
  | none, some (property, value), _ => (valuedClass? property value).map (·, false)
  | none, none, some (property, value) => (valuedClass? property value).map (·, false)
  | none, none, none => (namedClass? s).map (·, false)

end SymbolIndex.Pattern
