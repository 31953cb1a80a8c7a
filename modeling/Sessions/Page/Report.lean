import Sessions.Check.Exchange
import Sessions.Document.Basic
import Sessions.Json.Writer
import Sessions.Page.Outline

/-!
# Sessions.Page.Report

The report of a check as a text for readers: an outline with the verdict, the problems and the
correlation sets, and a complete HTML page that also shows the facts of each definition.
-/

namespace Sessions.Page

open Check

def problemLine (d : Diagnostic) : String :=
  codeText d.kind ++ " " ++ d.render

/-- The verdict, and the problems if there are any. -/
def verdict (r : Report) : Outline :=
  if r.valid then
    [.paragraph (strongText "Valid" ++ ": every session can be identified by correlation.")]
  else
    [.paragraph (strongText "Invalid" ++ ": " ++ toString r.diagnostics.length ++ " problems."),
     .bullets (r.diagnostics.map fun d => (problemLine d, []))]

def setItem (s : Correlation.CorrelationSet) : String × List String :=
  (strongText s.name, s.paths.map fun p => codeText p.render)

/-- The correlation sets of a document, if it has any. -/
def setsOutline (sets : List Correlation.CorrelationSet) : Outline :=
  if sets.isEmpty then []
  else [.heading 2 "Correlation sets", .bullets (sets.map setItem)]

/-- The outline of a report. -/
def outline (d : Document) (r : Report) : Outline :=
  [.heading 1 d.source, .paragraph ("Execution mode: " ++ codeText d.mode.name)] ++ verdict r ++
    setsOutline d.correlation.sets

/-- One row of the facts of a definition; nothing if it has none of the kind. -/
def factsRow (what : String) (paths : List String) : String :=
  if paths.isEmpty then ""
  else "<tr><td>" ++ what ++ "</td><td>\n" ++
    String.join (paths.map fun p => "<code>" ++ Text.escapeAttribute p ++ "</code> \n") ++
    "</td></tr>\n"

def definitionRow (s : Summary) : String :=
  let name := Text.escapeAttribute s.name
  "<tr class=\"definition\"><td><span id=\"" ++ name ++ "\" class=\"definitionName\">" ++ name ++
    "</span></td><td>\n<table>\n" ++
    factsRow "provides" s.providedCorr ++ factsRow "fresh" s.freshCorr ++
    factsRow "needs" s.neededCorr ++ factsRow "initializes" s.providedVar ++
    factsRow "uses" s.neededVar ++ factsRow "invalidates" s.invalidated ++
    "</table>\n</td></tr>\n"

/-- The body of the page of a report. -/
def body (d : Document) (r : Report) : String :=
  "<div class=\"reportDoc doc\">" ++ (outline d r).html ++ "</div>\n" ++
    "<div class=\"definitions\"><table>\n" ++ String.join (r.definitions.map definitionRow) ++
    "</table></div>\n"

/-- The style sheets of a page that names none. -/
def defaultStyles : List String := ["/static/report-html.css"]

/-- The complete page of a report. -/
def page (d : Document) (r : Report) (styles : List String) : String :=
  "<!DOCTYPE html>\n<meta charset=\"utf-8\">\n<html>\n  <head>\n  <title>" ++
    Text.escapeAttribute d.source ++ "</title>\n  <script>\n  var thisReport = " ++
    Json.compact r.toDatum ++ ";\n  </script>\n" ++
    String.join (styles.map fun s => "  <link href=\"" ++ s ++ "\" rel=\"stylesheet\">\n") ++
    "\n  </head>\n  <body>\n" ++ body d r ++ "\n  </body>\n</html>\n"

end Sessions.Page
