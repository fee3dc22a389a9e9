import RequestPlan.Text.Split

/-!
# Request keys of filters

* `FilterKey`: a key in its parts between `$`; the parts before the last name relations.
* `FilterKey.parse`, `FilterKey.text`: a key from its text and back; `text_parse` says
  that nothing is lost.
-/

namespace RequestPlan

/-- A request key in parts. A key from a text has one part at least. -/
abbrev FilterKey := List String

namespace FilterKey

/-- The key that a text spells. -/
def parse (s : String) : FilterKey := Text.splitOn '$' s

/-- The text of a key. -/
def text (k : FilterKey) : String := Text.joinWith "$" k

/-- Whether nothing is asked for behind a relation. -/
def isBlank (k : FilterKey) : Bool :=
  match k with
  | [] => true
  | [part] => part.isEmpty
  | _ => false

/-- **A key's text is the text it was read from.** -/
theorem text_parse (s : String) : text (parse s) = s := Text.joinWith_splitOn '$' s

end FilterKey
end RequestPlan
