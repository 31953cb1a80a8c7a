import Sessions.Page.Span
import Sessions.Page.Typography

/-!
# Sessions.Page.Outline

A short text with headings, paragraphs and lists, written as Markdown or as HTML. The lines of an
outline are Markdown themselves: what names in them look like is read when they are put on a page.
-/

namespace Sessions.Page

inductive Block where
  | heading (level : Nat) (text : String)
  | paragraph (text : String)
  /-- Each item has a line and a list of further lines below it. -/
  | bullets (items : List (String × List String))
deriving DecidableEq, Repr

abbrev Outline := List Block

/-! ## Markdown -/

/-- A text as code. -/
def codeText (s : String) : String :=
  String.ofList (Span.tick :: s.toList ++ [Span.tick])

def strongText (s : String) : String :=
  "**" ++ s ++ "**"

def Block.markdown : Block → String
  | .heading level text => String.ofList (List.replicate level '#') ++ " " ++ text ++ "\n"
  | .paragraph text => text ++ "\n"
  | .bullets items => String.join (items.map fun (line, below) =>
      "- " ++ line ++ "\n" ++ String.join (below.map fun b => "  - " ++ b ++ "\n"))

/-- The outline as Markdown, an empty line after each block. -/
def Outline.markdown (o : Outline) : String :=
  String.join (o.map fun b => b.markdown ++ "\n")

/-! ## HTML -/

/-- A text between an opening and a closing tag. -/
def element (name : String) (inner : String) : String :=
  "<" ++ name ++ ">" ++ inner ++ "</" ++ name ++ ">"

mutual

def Span.html (q : Quotes) : Span → String × Quotes
  | .plain s => setText q s
  | .code s => (element "code" (escapeAll s), q)
  | .emphasis inner =>
    let (s, q) := spansHtml q inner
    (element "em" s, q)
  | .strong inner =>
    let (s, q) := spansHtml q inner
    (element "strong" s, q)
  | .struck inner =>
    let (s, q) := spansHtml q inner
    (element "del" s, q)
  | .link target title inner =>
    let (s, q) := spansHtml q inner
    let title := if title = "" then "" else " title=\"" ++ escapeText title ++ "\""
    ("<a href=\"" ++ escapeText target ++ "\"" ++ title ++ ">" ++ s ++ "</a>", q)
  | .image source title alt =>
    let (s, q) := setText q alt
    let title := if title = "" then "" else "\" title=\"" ++ escapeText title
    ("<img src=\"" ++ escapeText source ++ "\" alt=\"" ++ s ++ title ++ "\" />", q)
  | .tag s => (s, q)
  | .lineBreak => ("<br />\n", q)

def spansHtml (q : Quotes) : List Span → String × Quotes
  | [] => ("", q)
  | s :: rest =>
    let (first, q) := s.html q
    let (more, q) := spansHtml q rest
    (first ++ more, q)

end

/-- A line of Markdown as HTML. -/
def lineHtml (q : Quotes) (line : String) : String × Quotes :=
  spansHtml q (Span.read line)

/-- The lines of a list as HTML. -/
def linesHtml (q : Quotes) : List String → String × Quotes
  | [] => ("", q)
  | line :: rest =>
    let (s, q) := lineHtml q (line ++ "\n")
    let (more, q) := linesHtml q rest
    (element "li" s ++ "\n" ++ more, q)

/-- The items of a list as HTML, each with the list below it. -/
def itemsHtml (q : Quotes) : List (String × List String) → String × Quotes
  | [] => ("", q)
  | (line, below) :: rest =>
    let (s, q) := lineHtml q (line ++ "\n")
    let (sub, q) := linesHtml q below
    let sub := if below.isEmpty then "" else "\n\n" ++ element "ul" ("\n" ++ sub)
    let (more, q) := itemsHtml q rest
    (element "li" (s ++ sub) ++ "\n" ++ more, q)

/-- A heading as it is read: its text, the name that it can be linked by, and what stands after it.
Number signs at its end do not show. -/
def headingParts (text : String) : String × String × String :=
  let cs := text.toList.dropWhile (· = ' ')
  let rec split (before : List Char) : List Char → List Char × List Char
    | '\x7b' :: '#' :: rest => (before, rest)
    | c :: rest => split (c :: before) rest
    | [] => (before, [])
  let (before, rest) := split [] cs
  let name := rest.takeWhile (· ≠ '\x7d')
  let isNamed := name.length < rest.length
  let shown := if isNamed then before.dropWhile (· = ' ') else cs.reverse
  let bare := shown.dropWhile (· = '#')
  let bare :=
    if bare.length < shown.length && (bare.takeWhile (· = '\\')).length % 2 = 1 then '#' :: bare
    else bare
  (String.ofList (bare.dropWhile (· = ' ')).reverse,
    if isNamed then String.ofList name else "",
    if isNamed then String.ofList ((rest.drop (name.length + 1)).dropWhile (· = ' ')) else "")

/-- A block as HTML; a heading without text is left out. -/
def Block.html (q : Quotes) : Block → List String × Quotes
  | .heading level text =>
    let (shown, name, rest) := headingParts text
    let tag := "h" ++ toString level
    let named := if name = "" then tag else tag ++ " id=\"" ++ name ++ "\""
    let (s, q) := lineHtml q shown
    let heading := if shown = "" then [] else ["<" ++ named ++ ">" ++ s ++ "</" ++ tag ++ ">"]
    let (s, q) := lineHtml q rest
    (heading ++ if rest = "" then [] else [element "p" s], q)
  | .paragraph text =>
    let (s, q) := lineHtml q text
    ([element "p" s], q)
  | .bullets items =>
    let (s, q) := itemsHtml q items
    ([element "ul" ("\n" ++ s)], q)

def blocksHtml (q : Quotes) : List Block → List String
  | [] => []
  | b :: rest =>
    let (first, q) := b.html q
    first ++ blocksHtml q rest

/-- The outline as HTML, an empty line between blocks. -/
def Outline.html (o : Outline) : String :=
  "\n\n".intercalate (blocksHtml {} o) ++ "\n"

end Sessions.Page
