import Docset.Manifest.Basic

/-!
# The index page

A manifest can be written as a page with one link per entry, in the order of the
display paths. Whatever comes from a manifest or from the caller is escaped, so
none of it can open or close a tag or an attribute.
-/
namespace Docset.Manifest

/-- The written form of a character inside a text or a quoted attribute. -/
def escapeHtml (c : Char) : List Char :=
  if c = '<' then "&#60;".toList
  else if c = '>' then "&#62;".toList
  else if c = '&' then "&#38;".toList
  else if c = '"' then "&#34;".toList
  else if c = '\'' then "&#39;".toList
  else [c]

def escaped (s : String) : List Char := s.toList.flatMap escapeHtml

/-- What stands on the page in front of the address of the style sheet. -/
def pageStart : String :=
  "<!DOCTYPE HTML>\n<html lang=\"en\">\n  <head>\n    <meta charset=\"UTF-8\"/>\n" ++
  "    <meta name=\"viewport\" content=\"width=device-width, user-scalable=no, " ++
  "minimum-scale=1.0, maximum-scale=1.0\"/>\n    <link media=\"all\" rel=\"stylesheet\" href=\""

/-- What stands between the address of the style sheet and the entries. -/
def pageMiddle : String :=
  "css/github-markdown.min.css\" type=\"text/css\" />\n    <title>Components</title>\n" ++
  "  </head>\n" ++
  "  <body style=\"margin: 0; margin-bottom: 24px;\">\n" ++
  "    <div class=\"markdown-body\" style=\"margin: 0 auto; padding: 0 40px\">\n" ++
  "      <h1>Components</h1>\n      "

def pageEnd : String := "\n    </div>\n  </body>\n</html>"

/-- The line of one entry, `lead` being put in front of its address. -/
def row (lead : String) (entry : String × String) : List Char :=
  "\n        <li><a href=\"".toList ++ escaped lead ++ escaped entry.2 ++ "\">".toList ++
    escaped entry.1 ++ "</a></li>\n      ".toList

/-- The entries, or a remark that there are none. -/
def pageBody (lead : String) (entries : List (String × String)) : List Char :=
  match entries with
  | [] => "\n      <p>No stories found.</p>\n      ".toList
  | _ =>
      "\n      <ul>\n      ".toList ++ entries.flatMap (row lead) ++
        "\n      </ul>\n      ".toList

/-- The index page, with `lead` put in front of all addresses. -/
def page (m : Manifest) (lead : String) : String :=
  String.ofList (pageStart.toList ++ escaped lead ++ pageMiddle.toList ++
    pageBody lead m.entries.pairs ++ pageEnd.toList)

end Docset.Manifest
