import CodeAtlas.Grammar.Basic

/-!
# Markdown documents

A document is cut at its headings: every heading opens a section that reaches to
the next heading, and what stands before the first heading is the preamble.
-/

namespace CodeAtlas.Grammar.Markdown

open Syntax (Node)

def levelOf (heading : String) : Nat :=
  (heading.toList.takeWhile (· = '#')).length

def titleOf (heading : String) : String :=
  Text.trim (Text.dropLeading heading '#')

def marksBeforeSpace (heading : String) : Nat :=
  (heading.toList.takeWhile (· ≠ ' ')).count '#'

def facts (source : Source) (node : Node) : Except Fault Facts := do
  let base : Facts := { nodeKind := some node.kind }
  if node.kind == "atx_heading" then
    let heading := Text.trim (← node.text source)
    return { base with
      headingLevel := some (levelOf heading)
      name := some (titleOf heading)
      role := some "heading" }
  else if node.kind == "section" then
    match ← node.childText? source ["atx_heading"] with
    | some text =>
      let heading := Text.trim text
      return { base with
        headingLevel := some (marksBeforeSpace heading)
        name := some (titleOf heading)
        role := some "section" }
    | none => return base
  else
    return base

def headings (tree : Node) : List Node :=
  tree.preorder.filter (·.kind == "atx_heading")

/-- The lines from one to another, counted from one, both included.  The line before the
first one counts from the end when it is below zero, and so does the last one. -/
def lineRange (lines : List String) (first last : Int) : String :=
  Text.join "\n" ((lines.take (Text.sliceBound lines.length last)).drop
    (Text.sliceBound lines.length (first - 1)))

def sectionOf (label : String) (source : Source) (lines : List String) (heading : Node)
    (last : Int) : Except Fault Fragment := do
  let text := Text.trim (← heading.text source)
  return {
    content := lineRange lines heading.startLine last
    startLine := heading.startLine
    endLine := last
    kind := "section"
    language := label
    facts := {
      name := some (titleOf text)
      headingLevel := some (levelOf text)
      role := some "section" } }

/-- The sections of the headings; each ends before the next heading. -/
def sections (label : String) (source : Source) (lines : List String) :
    List Node → Except Fault (List Fragment)
  | [] => .ok []
  | [heading] => do return [← sectionOf label source lines heading lines.length]
  | heading :: next :: rest => do
    let first ← sectionOf label source lines heading next.span.startRow
    return first :: (← sections label source lines (next :: rest))

/-- What stands before the first heading, unless it is blank. -/
def preamble (label : String) (lines : List String) (firstHeading : Node) : List Fragment :=
  let row := firstHeading.span.startRow
  let content := Text.trim (Text.join "\n" (lines.take row.toNat))
  if row ≤ 0 || content.isEmpty then []
  else [{
    content
    startLine := 1
    endLine := row
    kind := "preamble"
    language := label
    facts := { name := some "Preamble", role := some "preamble" } }]

/-- A document without headings is one fragment, unless it is blank. -/
def wholeDocument (label : String) (source : Source) : List Fragment :=
  if Text.isBlankText source.text then []
  else [{
    content := source.text
    startLine := 1
    endLine := source.lineCount
    kind := "document"
    language := label
    facts := { name := some "Document", role := some "document" } }]

def fragments (label : String) (source : Source) (tree : Node) : Except Fault (List Fragment) :=
  match headings tree with
  | [] => .ok (wholeDocument label source)
  | first :: rest => do
    let lines := Text.lines source.text
    let parts ← sections label source lines (first :: rest)
    return preamble label lines first ++ parts

end CodeAtlas.Grammar.Markdown

namespace CodeAtlas.Grammar

def markdown : Grammar where
  label := "markdown"
  splittable := ["section", "atx_heading"]
  accepts := byKind ["section", "atx_heading"]
  facts := Markdown.facts

end CodeAtlas.Grammar
