import SpanForest.Text.Quoted

/-! # Documents in JSON

    * **`Json.pretty`**: a document with one value a line, indented by two
      spaces for each level; an empty list stays on its line.
    * **`Json.compact`**: a document in one line, without spaces.
    * **`Json.quoteText`**: a text between quotes, where only the quote, the
      backslash and the controls below the space are escaped.
-/

namespace SpanForest.Text

/-- A document. -/
inductive Json where
  /-- A truth value. -/
  | flag (b : Bool)
  /-- A whole number. -/
  | number (n : Int)
  /-- A text. -/
  | text (s : String)
  /-- A list. -/
  | list (items : List Json)
  /-- An object: named values, in order. -/
  | object (fields : List (String × Json))

namespace Json

/-- The form of a character in a text. -/
def escapeChar (c : Char) : String :=
  match c with
  | '"' => "\\\""
  | '\\' => "\\\\"
  | '\x08' => "\\b"
  | '\x0c' => "\\f"
  | '\n' => "\\n"
  | '\r' => "\\r"
  | '\t' => "\\t"
  | c =>
    if c < ' ' then "\\u00" ++ (if c.toNat < 16 then "0" else "") ++ hexadecimal c.toNat
    else String.singleton c

/-- The form of a text. -/
def quoteText (s : String) : String :=
  "\"" ++ String.join (s.toList.map escapeChar) ++ "\""

/-- The space at the beginning of a line of the given level. -/
def indent (level : Nat) : String :=
  String.ofList (List.replicate (2 * level) ' ')

/-- Items on lines of their own between two brackets, one level further in
    than the brackets. -/
def block (opening closing : String) (level : Nat) (items : List String) : String :=
  match items with
  | [] => opening ++ closing
  | items =>
    opening ++ "\n" ++ ",\n".intercalate (items.map (indent (level + 1) ++ ·)) ++ "\n"
      ++ indent level ++ closing

/-! ## Over several lines -/

mutual

/-- A document whose first line begins at the given level. -/
def prettyAt (level : Nat) : Json → String
  | .flag b => toString b
  | .number n => toString n
  | .text s => quoteText s
  | .list items => block "[" "]" level (prettyItems (level + 1) items)
  | .object fields => block "\x7b" "\x7d" level (prettyFields (level + 1) fields)

/-- The items of a list. -/
def prettyItems (level : Nat) : List Json → List String
  | [] => []
  | item :: rest => prettyAt level item :: prettyItems level rest

/-- The fields of an object. -/
def prettyFields (level : Nat) : List (String × Json) → List String
  | [] => []
  | (name, value) :: rest =>
    (quoteText name ++ ": " ++ prettyAt level value) :: prettyFields level rest

end

/-- A document over several lines. -/
def pretty (document : Json) : String := prettyAt 0 document

/-! ## In one line -/

mutual

/-- A document in one line. -/
def compact : Json → String
  | .flag b => toString b
  | .number n => toString n
  | .text s => quoteText s
  | .list items => "[" ++ ",".intercalate (compactItems items) ++ "]"
  | .object fields => "\x7b" ++ ",".intercalate (compactFields fields) ++ "\x7d"

/-- The items of a list. -/
def compactItems : List Json → List String
  | [] => []
  | item :: rest => compact item :: compactItems rest

/-- The fields of an object. -/
def compactFields : List (String × Json) → List String
  | [] => []
  | (name, value) :: rest => (quoteText name ++ ":" ++ compact value) :: compactFields rest

end

end Json

end SpanForest.Text
