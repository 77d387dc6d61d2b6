import PageTemplate.Dynamic.Render
import PageTemplate.Dynamic.Tag
set_option autoImplicit false
/-!
Variables and free expressions. In order: tags between grave accents lose the accents; dotted paths are
followed; each variable in turn replaces its plain tags; empty tags vanish; and what is left is evaluated,
unless it belongs to another phase.
-/
namespace PageTemplate

/-- Is the body of a tag a structural word, the start of a block, or a call? -/
def isReservedBody (body : Text) : Bool :=
  let t := trim body
  occursIn (text "user:") body || Tag.structuralWords.contains t
    || ["if ", "else if ", "for "].any fun s => (after? (text s) t).isSome

namespace Variable

def grave : Char := Char.ofNat 96

/-- The text up to two closing braces with a grave accent behind them, on one line. -/
def readAccented : Text → Option (Text × Text)
  | [] => none
  | c :: cs =>
    match (after? Tag.closing (c :: cs)).bind fun r => after? [grave] (skipBlanks r) with
    | some rest => some ([], rest)
    | none => if c = '\n' then none else (readAccented cs).map fun (b, rest) => (c :: b, rest)

/-- A tag between grave accents; gives the tag without them. -/
def readEscaped : TagReader Text := fun t => do
  let r ← after? [grave] t
  let r ← after? Tag.opening (skipBlanks r)
  let (body, rest) ← readAccented r
  some (Tag.opening ++ body ++ Tag.closing, rest)

/-- Two or more words with single points between them. -/
def readPath : TagReader Text := fun t => do
  let r ← after? Tag.opening t
  let inPath (c : Char) : Bool := isWordChar c || c == '.'
  let path := r.takeWhile inPath
  let rest ← after? Tag.closing (r.dropWhile inPath)
  let segments := splitAt ['.'] path
  if 2 ≤ segments.length && segments.all (!·.isEmpty) then some (path, rest) else none

/-- A plain tag of a key. As the key may start with blanks, the blanks in front of it are tried from many
to none. -/
def readKey (key : Text) : TagReader Unit := fun t => do
  let r ← after? Tag.opening t
  let rest ← (List.range ((blankRun r).length + 1)).reverse.findSome? fun n =>
    (after? key (r.drop n)).bind fun r' => after? Tag.closing (skipBlanks r')
  some ((), rest)

def readEmpty : TagReader Unit := Tag.readKeyword []

def readExpression : TagReader Text := fun t => do
  let (body, rest) ← Tag.readBody t
  if body.isEmpty then none else some (body, rest)

def substitutePaths (ctx : RenderContext) (t : Text) : Render Text :=
  Piece.replaceM
    (fun path _ => do
      let v ← Render.ofExcept ((Value.map ctx.vars).atPath? path)
      Render.display (v.getD .null))
    (Piece.scan readPath t)

/-- The plain tags of one variable. The value is shown once, and only if there is such a tag. -/
def substituteKey (key : Text) (value : Value) (t : Text) : Render Text := do
  if Piece.occurs (readKey key) t then
    let shown ← Render.display value
    pure (Piece.replace (readKey key) (fun _ => shown) t)
  else pure t

def substituteKeys : Entries → Text → Render Text
  | [], t => pure t
  | (.str key, value) :: es, t => do
    let t ← if isUnsafeName key then pure t else substituteKey key value t
    substituteKeys es t
  | _ :: es, t => substituteKeys es t

def evaluateTags (ctx : RenderContext) (t : Text) : Render Text :=
  Piece.replaceM
    (fun body source => do
      if isReservedBody body then pure source
      else Render.display (← Render.valueOf ctx (trim body)))
    (Piece.scan readExpression t)

end Variable

def substituteVariables (ctx : RenderContext) (t : Text) : Render Text := do
  let t ← Variable.substitutePaths ctx (Piece.replace Variable.readEscaped id t)
  let t ← Variable.substituteKeys ctx.vars t
  Variable.evaluateTags ctx (Piece.remove Variable.readEmpty t)

end PageTemplate
