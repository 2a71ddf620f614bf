/-!
# Built-in rules

The rules for the styles that word processors define themselves: headings, notes
and comments, lists, links and plain paragraphs.
-/

namespace StyleRules
namespace StyleMap

/-- The lines of the built-in rules. -/
def builtinLines : List String :=
  ["# Headings, by style id and by style name",
    "p.Heading1 -> h1:fresh",
    "p.Heading2 -> h2:fresh",
    "p.Heading3 -> h3:fresh",
    "p.Heading4 -> h4:fresh",
    "p.Heading5 -> h5:fresh",
    "p.Heading6 -> h6:fresh",
    "p[style-name='Heading 1'] -> h1:fresh",
    "p[style-name='Heading 2'] -> h2:fresh",
    "p[style-name='Heading 3'] -> h3:fresh",
    "p[style-name='Heading 4'] -> h4:fresh",
    "p[style-name='Heading 5'] -> h5:fresh",
    "p[style-name='Heading 6'] -> h6:fresh",
    "p[style-name='heading 1'] -> h1:fresh",
    "p[style-name='heading 2'] -> h2:fresh",
    "p[style-name='heading 3'] -> h3:fresh",
    "p[style-name='heading 4'] -> h4:fresh",
    "p[style-name='heading 5'] -> h5:fresh",
    "p[style-name='heading 6'] -> h6:fresh",
    "",
    "r[style-name='Strong'] -> strong",
    "",
    "# Notes and comments",
    "p[style-name='footnote text'] -> p:fresh",
    "r[style-name='footnote reference'] ->",
    "p[style-name='endnote text'] -> p:fresh",
    "r[style-name='endnote reference'] ->",
    "p[style-name='annotation text'] -> p:fresh",
    "r[style-name='annotation reference'] ->",
    "",
    "# Lists",
    "p:unordered-list(1) -> ul > li:fresh",
    "p:unordered-list(2) -> ul|ol > li > ul > li:fresh",
    "p:unordered-list(3) -> ul|ol > li > ul|ol > li > ul > li:fresh",
    "p:unordered-list(4) -> ul|ol > li > ul|ol > li > ul|ol > li > ul > li:fresh",
    "p:unordered-list(5) -> ul|ol > li > ul|ol > li > ul|ol > li > ul|ol > li > ul > li:fresh",
    "p:ordered-list(1) -> ol > li:fresh",
    "p:ordered-list(2) -> ul|ol > li > ol > li:fresh",
    "p:ordered-list(3) -> ul|ol > li > ul|ol > li > ol > li:fresh",
    "p:ordered-list(4) -> ul|ol > li > ul|ol > li > ul|ol > li > ol > li:fresh",
    "p:ordered-list(5) -> ul|ol > li > ul|ol > li > ul|ol > li > ul|ol > li > ol > li:fresh",
    "",
    "r[style-name='Hyperlink'] ->",
    "",
    "p[style-name='Normal'] -> p:fresh"]

/-- The text of the built-in rules. -/
def builtinText : String :=
  String.join (builtinLines.map (· ++ "\n"))

end StyleMap
end StyleRules
