import GoLayout.Proofs.FieldLine.Shape

/-! # Types as they are printed

    The types that a field can have on one line: names with or without a package and type
    arguments, pointers, slices, arrays, maps, channels, functions, the empty interface, the
    empty struct, and any of them in parentheses.  However they nest, a printed type is closed
    text (`GoType.closed`) without outer blanks (`GoType.isTypeText`). -/

namespace GoLayout

/-- An identifier. -/
structure Name where
  text : Text
  isIdentifier : Identifier.isIdentifier text = true

/-- Text of flat characters, such as the length of an array. -/
structure FlatText where
  text : Text
  flat : text.all isFlat = true

/-- The ways a channel can be used. -/
inductive ChannelUse where
  | both
  | send
  | receive

/-- The word for a channel. -/
def ChannelUse.text : ChannelUse → Text
  | both => ['c', 'h', 'a', 'n', ' ']
  | send => ['c', 'h', 'a', 'n', '<', '-', ' ']
  | receive => ['<', '-', 'c', 'h', 'a', 'n', ' ']

mutual

/-- A type. -/
inductive GoType where
  | named (package : Option Name) (name : Name)
  | generic (package : Option Name) (name : Name) (first : GoType) (more : List GoType)
  | pointer (target : GoType)
  | slice (element : GoType)
  | array (length : FlatText) (element : GoType)
  | map (key value : GoType)
  | channel (use : ChannelUse) (element : GoType)
  | function (parameters : List Parameter) (results : Results)
  | emptyInterface
  | emptyStruct
  | paren (inner : GoType)

/-- Parameters of one type, with or without names. -/
inductive Parameter where
  | mk (names : List Name) (variadic : Bool) (type : GoType)

/-- What a function returns. -/
inductive Results where
  | none
  | one (type : GoType)
  | several (results : List Parameter)

end

/-- The package with its dot, if there is one, and the name. -/
def qualifiedText (package : Option Name) (name : Name) : Text :=
  FieldLine.packageText (package.map (·.text)) ++ name.text

/-- Parts of a list in brackets. -/
def listText (left right : Char) (parts : List Text) : Text :=
  [left] ++ Text.joinWith [',', ' '] parts ++ [right]

/-- The names of parameters and the blank behind them, if there are any. -/
def parameterNames : List Name → Text
  | [] => []
  | name :: names => FieldLine.nameList ((name :: names).map (·.text)) ++ [' ']

mutual

/-- The type as it is printed. -/
def GoType.text : GoType → Text
  | .named package name => qualifiedText package name
  | .generic package name first more =>
      qualifiedText package name ++ listText '[' ']' (first.text :: textsOf more)
  | .pointer target => ['*'] ++ target.text
  | .slice element => ['[', ']'] ++ element.text
  | .array length element => (['['] ++ length.text ++ [']']) ++ element.text
  | .map key value => ['m', 'a', 'p'] ++ (['['] ++ key.text ++ [']']) ++ value.text
  | .channel use element => use.text ++ element.text
  | .function parameters results =>
      ['f', 'u', 'n', 'c'] ++ listText '(' ')' (parameterTexts parameters) ++ results.text
  | .emptyInterface => ['i', 'n', 't', 'e', 'r', 'f', 'a', 'c', 'e', '{', '}']
  | .emptyStruct => ['s', 't', 'r', 'u', 'c', 't', '{', '}']
  | .paren inner => ['('] ++ inner.text ++ [')']

def Parameter.text : Parameter → Text
  | .mk names variadic type =>
      parameterNames names ++ (if variadic then ['.', '.', '.'] else []) ++ type.text

def Results.text : Results → Text
  | .none => []
  | .one type => [' '] ++ type.text
  | .several results => [' '] ++ listText '(' ')' (parameterTexts results)

def textsOf : List GoType → List Text
  | [] => []
  | t :: ts => t.text :: textsOf ts

def parameterTexts : List Parameter → List Text
  | [] => []
  | p :: ps => p.text :: parameterTexts ps

end

/-! ## Printed types are closed -/

theorem Name.flat (n : Name) : n.text.all isFlat = true := by
  rw [List.all_eq_true]
  exact fun c hc => isFlat_of_isWord (Identifier.isWord_of_mem n.isIdentifier c hc)

theorem Name.closed (n : Name) : Closed n.text := Closed.of_flat n.flat

theorem packageText_closed (package : Option Name) :
    Closed (FieldLine.packageText (package.map (·.text))) := by
  cases package with
  | none => exact .nil
  | some p => exact p.closed.append (Closed.of_flat (by decide))

/-- A name is closed, with its package or without. -/
theorem qualifiedText_closed (package : Option Name) (name : Name) :
    Closed (qualifiedText package name) :=
  (packageText_closed package).append name.closed

theorem comma_closed : Closed [',', ' '] := Closed.of_flat (by decide)

/-- A list of closed parts is closed between its brackets. -/
theorem listText_closed {left right : Char} {parts : List Text} (hpair : BracketPair left right)
    (h : ∀ t ∈ parts, Closed t) : Closed (listText left right parts) :=
  (Closed.joinWith comma_closed h).enclose hpair

theorem parameterNames_closed (names : List Name) : Closed (parameterNames names) := by
  cases names with
  | nil => exact .nil
  | cons name names =>
      refine (Closed.joinWith comma_closed fun t ht => ?_).append (Closed.of_flat (by decide))
      obtain ⟨n, -, rfl⟩ := List.mem_map.mp ht
      exact n.closed

theorem ChannelUse.closed (use : ChannelUse) : Closed use.text := by
  cases use <;> exact Closed.of_flat (by decide)

mutual

/-- Every type is closed, as it is built from closed types between pairs of brackets. -/
theorem GoType.closed : ∀ t : GoType, Closed t.text
  | .named package name => qualifiedText_closed package name
  | .generic package name first more =>
      (qualifiedText_closed package name).append (listText_closed .square fun t ht => by
        -- the first argument stands apart, since there is one at least
        rcases List.mem_cons.mp ht with rfl | hmem
        · exact first.closed
        · exact textsOf_closed more t hmem)
  | .pointer target => (Closed.of_flat (by decide)).append target.closed
  | .slice element => (Closed.nil.enclose .square).append element.closed
  | .array length element =>
      ((Closed.of_flat length.flat).enclose .square).append element.closed
  | .map key value =>
      ((Closed.of_flat (by decide)).append (key.closed.enclose .square)).append value.closed
  | .channel use element => use.closed.append element.closed
  | .function parameters results =>
      ((Closed.of_flat (by decide)).append
        (listText_closed .round (parameterTexts_closed parameters))).append results.closed
  | .emptyInterface =>
      (Closed.of_flat (t := ['i', 'n', 't', 'e', 'r', 'f', 'a', 'c', 'e']) (by decide)).append
        (Closed.nil.enclose .curly)
  | .emptyStruct =>
      (Closed.of_flat (t := ['s', 't', 'r', 'u', 'c', 't']) (by decide)).append
        (Closed.nil.enclose .curly)
  | .paren inner => inner.closed.enclose .round

theorem Parameter.closed : ∀ p : Parameter, Closed p.text
  | .mk names variadic type => by
      refine ((parameterNames_closed names).append ?_).append type.closed
      cases variadic with
      | false => exact .nil
      | true => exact Closed.of_flat (by decide)

theorem Results.closed : ∀ r : Results, Closed r.text
  | .none => .nil
  | .one type => (Closed.of_flat (by decide)).append type.closed
  | .several results =>
      (Closed.of_flat (by decide)).append
        (listText_closed .round (parameterTexts_closed results))

/-- Lists of types are closed type by type. -/
theorem textsOf_closed : ∀ ts : List GoType, ∀ t ∈ textsOf ts, Closed t
  | [], t, ht => nomatch ht
  | first :: more, t, ht => by
      rcases List.mem_cons.mp ht with rfl | hmem
      · exact first.closed
      · exact textsOf_closed more t hmem

theorem parameterTexts_closed : ∀ ps : List Parameter, ∀ t ∈ parameterTexts ps, Closed t
  | [], t, ht => nomatch ht
  | first :: more, t, ht => by
      rcases List.mem_cons.mp ht with rfl | hmem
      · exact first.closed
      · exact parameterTexts_closed more t hmem

end

/-! ## Printed types have no outer blanks -/

/-- The text starts with a character that is neither a blank nor a comma. -/
def Starts (t : Text) : Prop := ∃ c rest, t = c :: rest ∧ isBlank c = false ∧ c ≠ ','

/-- The text ends with a character that is no blank. -/
def Ends (t : Text) : Prop := ∃ before c, t = before ++ [c] ∧ isBlank c = false

theorem Starts.append {t : Text} (h : Starts t) (rest : Text) : Starts (t ++ rest) := by
  obtain ⟨c, u, rfl, hc⟩ := h
  exact ⟨c, u ++ rest, rfl, hc⟩

theorem Starts.of_cons {c : Char} (h : isBlank c = false ∧ c ≠ ',') (t : Text) : Starts (c :: t) :=
  ⟨c, t, rfl, h⟩

theorem Ends.append {t : Text} (h : Ends t) (before : Text) : Ends (before ++ t) := by
  obtain ⟨u, c, rfl, hc⟩ := h
  exact ⟨before ++ u, c, (List.append_assoc _ _ _).symm, hc⟩

theorem Ends.of_concat {c : Char} (h : isBlank c = false) (t : Text) : Ends (t ++ [c]) :=
  ⟨t, c, rfl, h⟩

theorem Name.starts (n : Name) : Starts n.text := by
  obtain ⟨c, u, hcons, hc, -⟩ := Identifier.exists_cons n.isIdentifier
  have hword := Identifier.isWord_of_isIdentStart hc
  refine ⟨c, u, hcons, Identifier.not_isBlank_of_isWord hword, ?_⟩
  rintro rfl
  exact absurd hword (by decide)

theorem Name.ends (n : Name) : Ends n.text := (Identifier.solid n.isIdentifier).last

/-- A name starts with a letter, with its package or without. -/
theorem qualifiedText_starts (package : Option Name) (name : Name) :
    Starts (qualifiedText package name) := by
  cases package with
  | none => exact name.starts
  | some p => exact (p.starts.append _).append _

theorem listText_ends {left right : Char} (h : isBlank right = false) (parts : List Text) :
    Ends (listText left right parts) :=
  Ends.of_concat h _

/-- No type starts with a blank or a comma. -/
theorem GoType.starts (t : GoType) : Starts t.text := by
  cases t with
  | named package name => exact qualifiedText_starts package name
  | generic package name first more => exact (qualifiedText_starts package name).append _
  | channel use element => cases use <;> exact Starts.of_cons (by decide) _
  | _ => exact Starts.of_cons (by decide) _

mutual

/-- No type ends with a blank. -/
theorem GoType.ends : ∀ t : GoType, Ends t.text
  | .named _ name => name.ends.append _
  | .generic _ _ _ _ => (listText_ends (by decide) _).append _
  | .pointer target => target.ends.append _
  | .slice element => element.ends.append _
  | .array _ element => element.ends.append _
  | .map _ value => value.ends.append _
  | .channel _ element => element.ends.append _
  | .function _ results => results.ends ((listText_ends (by decide) _).append _)
  | .emptyInterface => Ends.of_concat (by decide) ['i', 'n', 't', 'e', 'r', 'f', 'a', 'c', 'e', '{']
  | .emptyStruct => Ends.of_concat (by decide) ['s', 't', 'r', 'u', 'c', 't', '{']
  | .paren _ => Ends.of_concat (by decide) _

/-- Behind a text without a blank at its end the results end without one. -/
theorem Results.ends : ∀ r : Results, ∀ {t : Text}, Ends t → Ends (t ++ r.text)
  | .none, _, h => by
      show Ends (_ ++ [])
      rw [List.append_nil]
      exact h
  | .one type, _, _ => (type.ends.append _).append _
  | .several _, _, _ => ((listText_ends (by decide) _).append _).append _

end

/-- A printed type can stand as the type of a field. -/
theorem GoType.isTypeText (t : GoType) : IsTypeText t.text := by
  obtain ⟨c, u, hcons, hblank, hcomma⟩ := t.starts
  refine ⟨t.closed, ⟨⟨c, u, hcons, hblank⟩, t.ends⟩, ?_⟩
  rw [hcons]
  exact fun h => hcomma (Option.some.inj h)

/-- The type arguments of an embedded type as they are printed. -/
def argumentText : List GoType → Text
  | [] => []
  | first :: more => listText '[' ']' (textsOf (first :: more))

/-- Type arguments are closed, if there are any. -/
theorem argumentText_closed (arguments : List GoType) : Closed (argumentText arguments) := by
  cases arguments with
  | nil => exact .nil
  | cons first more => exact listText_closed .square (textsOf_closed (first :: more))

theorem argumentText_isArguments (arguments : List GoType) :
    FieldLine.IsArguments (argumentText arguments) := by
  cases arguments with
  | nil => exact .none
  | cons first more =>
      refine .some ?_
      exact (Closed.joinWith comma_closed (textsOf_closed (first :: more))).notMem
        List.mem_cons_self

end GoLayout
