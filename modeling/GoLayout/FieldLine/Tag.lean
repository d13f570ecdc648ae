import GoLayout.Source.Comment

/-! # Struct tags

    A field may end with a tag: a raw or an interpreted string literal at the start of the
    text or behind a blank, with nothing but blanks after it. Where several literals could be
    the tag, the first one is. -/

namespace GoLayout.Tag

/-- What follows the end of an interpreted string literal, given what follows its opening
    quote. A backslash and the character after it belong together; a line break cannot be
    escaped. -/
def afterInterpreted? : Text → Option Text
  | [] => none
  | ['\\'] => none
  | '\\' :: c :: t => if c = '\n' then none else afterInterpreted? t
  | c :: t => if c = '"' then some t else afterInterpreted? t

/-- What follows the string literal at the start of a text. -/
def afterLiteral? : Text → Option Text
  | [] => none
  | c :: t =>
    if c = rawQuote then (Text.cutAt? rawQuote t).map (·.2)
    else if c = '"' then afterInterpreted? t
    else none

/-- Is the text a string literal with blanks after it? -/
def isTag (t : Text) : Bool := (afterLiteral? t).any Text.isBlankText

/-- The text before its tag. The first argument says whether a tag may start here. -/
def before? : Bool → Text → Option Text
  | _, [] => none
  | mayStart, c :: t =>
    if mayStart && isTag (c :: t) then some []
    else (before? (isBlank c) t).map (c :: ·)

/-- A field without its tag and without outer blanks. -/
def strip (t : Text) : Text := Text.trim ((before? true t).getD t)

end GoLayout.Tag
