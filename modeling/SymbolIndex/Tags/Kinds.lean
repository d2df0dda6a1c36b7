/-!
# Kinds of tags

A tags file gives the kind of a symbol as a letter whose meaning depends on the language, which the
extension of the file tells. Configured meanings come before the built-in ones, and those of the
file's extension before the defaults.

* `KindRule`, `KindMap`: the kind and the subpriority of a letter, by extension;
* `builtinKinds`: the built-in meanings;
* `resolveKind`: the meaning of a letter.
-/

namespace SymbolIndex.Tags

/-- What a kind letter stands for. -/
structure KindRule where
  kind : String
  subpriority : Int64
  deriving DecidableEq, Repr

/-- Rules by file extension, or `default`, and then by kind letter. -/
abbrev KindMap := List (String × List (String × KindRule))

def KindMap.rule? (map : KindMap) (extension letter : String) : Option KindRule :=
  (map.lookup extension).bind fun rules => rules.lookup letter

/-- The rule of a letter for files of an extension, or else its default rule. -/
def KindMap.resolve? (map : KindMap) (extension letter : String) : Option KindRule :=
  map.rule? extension letter <|> map.rule? "default" letter

/-- The letters of C sources and headers. -/
def cKinds : List (String × KindRule) :=
  [("I", ⟨"UseFile", 45⟩), ("c", ⟨"TypeClass", 90⟩), ("d", ⟨"Define", 75⟩), ("e", ⟨"DefEnum", 75⟩),
   ("g", ⟨"TypeEnum", 75⟩), ("f", ⟨"ImpFunc", 85⟩), ("l", ⟨"ImpVarLoc", 60⟩),
   ("m", ⟨"ImpMember", 80⟩), ("n", ⟨"NameSpace", 70⟩), ("p", ⟨"ProtoFunc", 70⟩),
   ("s", ⟨"TypeStruct", 75⟩), ("t", ⟨"TypeDef", 80⟩), ("u", ⟨"TypeUnion", 75⟩),
   ("v", ⟨"ImpVar", 85⟩), ("x", ⟨"ProtoVar", 70⟩)]

/-- The letters of assembler sources. -/
def assemblerKinds : List (String × KindRule) :=
  [("d", ⟨"Define", 75⟩), ("l", ⟨"ImpLabel", 85⟩), ("m", ⟨"Define", 80⟩), ("t", ⟨"TypeDef", 80⟩)]

/-- The meanings of the letters that need no configuration. -/
def builtinKinds : KindMap :=
  [("h", cKinds), ("c", cKinds),
   ("py", [("c", ⟨"TypeClass", 90⟩), ("f", ⟨"ImpFunction", 85⟩), ("i", ⟨"UseFile", 45⟩),
     ("k", ⟨"ImpFuncLoc", 60⟩), ("m", ⟨"ImpMember", 80⟩), ("v", ⟨"ImpVar", 85⟩)]),
   ("s", assemblerKinds), ("asm", assemblerKinds),
   ("txt", [("t", ⟨"Target", 90⟩), ("v", ⟨"Variable", 50⟩), ("f", ⟨"Function", 50⟩),
     ("D", ⟨"Option", 60⟩)]),
   ("default", [("c", ⟨"TypeClass", 90⟩), ("f", ⟨"ImpFunction", 85⟩), ("v", ⟨"ImpVar", 85⟩),
     ("F", ⟨"File", 50⟩)])]

/-- The kind and the subpriority of a letter in files of an extension. An unknown letter makes a
kind of its own out of both. -/
def resolveKind (map : KindMap) (extension letter : String) : KindRule :=
  (map.resolve? extension letter <|> builtinKinds.resolve? extension letter).getD
    ⟨"X-" ++ extension ++ "-" ++ letter, 5⟩

end SymbolIndex.Tags
