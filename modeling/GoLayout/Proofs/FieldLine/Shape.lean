import GoLayout.FieldLine.Shape
import GoLayout.Proofs.Source.Closed
import GoLayout.Proofs.Source.Header

/-! # Shapes as they are printed

    Each shape of a field line is told from the others by what follows the first identifier:
    a blank and a type (`ofClean?_one`), a comma (`ofClean?_several`), or neither
    (`ofClean?_embedded`). -/

namespace GoLayout

/-- Text that can stand as the type of a field on its line. -/
structure IsTypeText (t : Text) : Prop where
  closed : Closed t
  solid : Text.Solid t
  noComma : t.head? ≠ some ','

namespace FieldLine

open Identifier

variable {name type : Text}

theorem typeAfter?_blank (h : IsTypeText type) : typeAfter? (' ' :: type) = some type := by
  obtain ⟨c, u, hcons, -⟩ := h.solid.head
  have htrim : Text.trimLeft type = type := by
    have happ := h.solid.trimLeft []
    rwa [List.append_nil] at happ
  have hempty : type.isEmpty = false := by rw [hcons]; rfl
  have hline : type.contains '\n' = false := by
    rw [List.contains_eq_mem, decide_eq_false]
    exact h.closed.notMem List.mem_cons_self
  rw [typeAfter?, htrim, hempty, hline]
  rfl

theorem typeAfter?_of_not_isBlank {rest : Text} (h : rest.head?.any isBlank = false) :
    typeAfter? rest = none := by
  cases rest with
  | nil => rfl
  | cons c rest =>
      have hc : isBlank c = false := h
      rw [typeAfter?, hc]
      rfl

/-! ## The chain of names -/

theorem nameChain_of_none {line : Text} (h : leading? line = none) : nameChain line = [] := by
  rw [nameChain]
  split
  · rfl
  · next hsome => rw [h] at hsome; cases hsome

/-- A name without a comma behind it is the last of its chain. -/
theorem nameChain_last {line rest : Text} (h : leading? line = some (name, rest))
    (hrest : (Text.trimLeft rest).head? ≠ some ',') : nameChain line = [(name, rest)] := by
  rw [nameChain]
  split
  · next hnone => rw [h] at hnone; cases hnone
  · next hsome =>
    obtain ⟨rfl, rfl⟩ := Prod.mk.inj (Option.some.inj (h.symm.trans hsome))
    split
    · next hcomma => rw [hcomma] at hrest; exact absurd rfl hrest
    · rfl

/-- Behind a comma the chain goes on. -/
theorem nameChain_comma {line rest more : Text} (h : leading? line = some (name, rest))
    (hrest : Text.trimLeft rest = ',' :: more) :
    nameChain line = (name, rest) :: nameChain (Text.trimLeft more) := by
  rw [nameChain]
  split
  · next hnone => rw [h] at hnone; cases hnone
  · next hsome =>
    obtain ⟨rfl, rfl⟩ := Prod.mk.inj (Option.some.inj (h.symm.trans hsome))
    split
    · next hcomma =>
      rw [hrest] at hcomma
      rw [(List.cons.inj hcomma).2]
    · next hnone => exact absurd hrest (hnone _)

/-- The names of a field as they are printed. -/
def nameList (names : List Text) : Text := Text.joinWith [',', ' '] names

theorem nameList_cons (next : Text) (names : List Text) :
    nameList (name :: next :: names) = name ++ ([',', ' '] ++ nameList (next :: names)) :=
  List.append_assoc _ _ _

/-- A list of names with another one in front is a chain with one more name. -/
theorem nameChain_nameList {next : Text} (names : List Text) (hname : isIdentifier name = true)
    (hnext : isIdentifier next = true) (tail : Text) :
    ∃ rest, nameChain (nameList (name :: next :: names) ++ tail) =
      (name, rest) :: nameChain (nameList (next :: names) ++ tail) := by
  have hsplit : nameList (name :: next :: names) ++ tail =
      name ++ (',' :: ' ' :: (nameList (next :: names) ++ tail)) := by
    rw [nameList_cons, List.append_assoc, List.append_assoc]
    rfl
  have hhead : (',' :: ' ' :: (nameList (next :: names) ++ tail)).head?.any isWord = false :=
    show isWord ',' = false by decide
  -- the next name starts with no blank, so that only the one behind the comma is taken away
  have hsolid : Text.trimLeft (' ' :: (nameList (next :: names) ++ tail)) =
      nameList (next :: names) ++ tail := by
    obtain ⟨u, hu⟩ : ∃ u, nameList (next :: names) ++ tail = next ++ u := by
      cases names with
      | nil => exact ⟨tail, rfl⟩
      | cons n ns => exact ⟨_, by rw [nameList_cons, List.append_assoc]⟩
    show Text.trimLeft (nameList (next :: names) ++ tail) = _
    rw [hu, (solid hnext).trimLeft]
  refine ⟨',' :: ' ' :: (nameList (next :: names) ++ tail), ?_⟩
  rw [hsplit, nameChain_comma (leading?_of_isIdentifier hname hhead) rfl, hsolid]

/-- A name is read up to the blank in front of its type. -/
theorem leading?_typed (hname : isIdentifier name = true) :
    leading? (name ++ ' ' :: type) = some (name, ' ' :: type) :=
  leading?_of_isIdentifier hname (show isWord ' ' = false by decide)

/-- All names of a list count, and the type behind them. -/
theorem longest?_nameList (htype : IsTypeText type) (names : List Text) :
    ∀ before name, (∀ n ∈ name :: names, isIdentifier n = true) →
      longest? before (nameChain (nameList (name :: names) ++ ' ' :: type)) =
        some (before ++ name :: names, type) := by
  induction names with
  | nil =>
      intro before name hnames
      -- the type starts with no comma, so that the chain ends with the last name
      have hlast : (Text.trimLeft (' ' :: type)).head? ≠ some ',' := by
        have htrim := htype.solid.trimLeft []
        rw [List.append_nil] at htrim
        show (Text.trimLeft type).head? ≠ some ','
        rw [htrim]
        exact htype.noComma
      show longest? before (nameChain (name ++ ' ' :: type)) = _
      rw [nameChain_last (leading?_typed (hnames name List.mem_cons_self)) hlast, longest?,
        longest?, typeAfter?_blank htype]
      rfl
  | cons next names ih =>
      intro before name hnames
      obtain ⟨rest, hchain⟩ := nameChain_nameList names
        (hnames name List.mem_cons_self)
        (hnames next (List.mem_cons_of_mem _ List.mem_cons_self)) (' ' :: type)
      rw [hchain, longest?, ih _ next fun n hn => hnames n (List.mem_cons_of_mem _ hn),
        List.append_assoc]
      rfl

/-! ## Fields with names -/

/-- One name and a type. -/
theorem ofClean?_one (hname : isIdentifier name = true) (htype : IsTypeText type) :
    ofClean? (name ++ ' ' :: type) = some ⟨[name], type, .named⟩ := by
  have hnamed : named? (name ++ ' ' :: type) = some ⟨[name], type, .named⟩ := by
    rw [named?, leading?_typed hname]
    show (typeAfter? (' ' :: type)).bind _ = _
    rw [typeAfter?_blank htype]
    show (if type.head? = some ',' then none else some (FieldLine.mk [name] type.trim .named)) = _
    rw [if_neg htype.noComma, htype.solid.trim]
  rw [ofClean?, hnamed]
  rfl

/-- Without a blank behind the first name a line does not have one name. -/
theorem named?_of_not_isBlank {line rest : Text} (h : leading? line = some (name, rest))
    (hrest : rest.head?.any isBlank = false) : named? line = none := by
  rw [named?, h]
  show (typeAfter? rest).bind _ = none
  rw [typeAfter?_of_not_isBlank hrest]
  rfl

/-- Several names and a type. -/
theorem ofClean?_several {next : Text} {names : List Text}
    (hnames : ∀ n ∈ name :: next :: names, isIdentifier n = true) (htype : IsTypeText type) :
    ofClean? (nameList (name :: next :: names) ++ ' ' :: type) =
      some ⟨name :: next :: names, type, .multiName⟩ := by
  have hname := hnames name List.mem_cons_self
  have hmore : ∀ n ∈ next :: names, isIdentifier n = true :=
    fun n hn => hnames n (List.mem_cons_of_mem _ hn)
  have hleading : leading? (nameList (name :: next :: names) ++ ' ' :: type) =
      some (name, [',', ' '] ++ nameList (next :: names) ++ ' ' :: type) := by
    rw [nameList_cons, List.append_assoc]
    exact leading?_of_isIdentifier hname (show isWord ',' = false by decide)
  -- the comma behind the first name excludes a line with one name
  have hnamed := named?_of_not_isBlank hleading (show isBlank ',' = false by decide)
  obtain ⟨rest, hchain⟩ := nameChain_nameList names hname
    (hmore next List.mem_cons_self) (' ' :: type)
  have hmulti : multiName? (nameList (name :: next :: names) ++ ' ' :: type) =
      some ⟨name :: next :: names, type, .multiName⟩ := by
    rw [multiName?, hchain]
    show (longest? [name] (nameChain _)).map _ = _
    rw [longest?_nameList htype names [name] next hmore]
    show some (FieldLine.mk ([name] ++ next :: names) type.trim .multiName) = _
    rw [htype.solid.trim]
    rfl
  rw [ofClean?, hnamed, hmulti]
  rfl

/-! ## Embedded fields -/

/-- The star of an embedded pointer, if there is one. -/
def starText (star : Bool) : Text := if star then ['*'] else []

/-- A package and its dot, if there is one. -/
def packageText : Option Text → Text
  | none => []
  | some package => package ++ ['.']

/-- Nothing, or type arguments in square brackets on one line. -/
inductive IsArguments : Text → Prop where
  | none : IsArguments []
  | some {t : Text} : '\n' ∉ t → IsArguments (['['] ++ t ++ [']'])

/-- Type arguments, or nothing, may end an embedded type. -/
theorem IsArguments.isBaseEnd {arguments : Text} (h : IsArguments arguments) :
    isBaseEnd arguments = true := by
  cases h with
  | none => rfl
  | @some t ht =>
      have hline : (t ++ [']']).contains '\n' = false := by
        rw [List.contains_eq_mem, decide_eq_false]
        intro hmem
        rcases List.mem_append.mp hmem with hin | hlast
        · exact ht hin
        · exact absurd hlast (by decide)
      show ((t ++ [']']).getLast? == Option.some ']' && !(t ++ [']']).contains '\n') = true
      rw [List.getLast?_concat, hline]
      rfl

/-- Neither a word character nor a blank nor a comma follows the base type. -/
theorem IsArguments.head {arguments : Text} (h : IsArguments arguments) :
    arguments.head?.any isWord = false ∧ arguments.head?.any isBlank = false ∧
      (Text.trimLeft arguments).head? ≠ Option.some ',' := by
  cases h with
  | none => exact ⟨rfl, rfl, by decide⟩
  | @some t ht =>
      have hbracket : isWord '[' = false ∧ isBlank '[' = false := by decide
      refine ⟨hbracket.1, hbracket.2, ?_⟩
      show (Text.trimLeft ('[' :: (t ++ [']']))).head? ≠ _
      rw [Text.trimLeft_cons hbracket.2]
      exact fun h => absurd (Option.some.inj h) (by decide)

/-- Without a comma behind the first name a line does not have several names. -/
theorem multiName?_of_last {line rest : Text} (h : leading? line = some (name, rest))
    (hrest : (Text.trimLeft rest).head? ≠ some ',') : multiName? line = none := by
  rw [multiName?, nameChain_last h hrest]
  rfl

variable {base arguments : Text}

/-- A package leads up to its dot. -/
theorem leading?_package {package : Text} (h : isIdentifier package = true) (rest : Text) :
    leading? (packageText (some package) ++ rest) = some (package, '.' :: rest) := by
  show leading? ((package ++ ['.']) ++ rest) = _
  rw [List.append_assoc]
  exact leading?_of_isIdentifier h (show isWord '.' = false by decide)

/-- Behind the first name of an embedded type stands neither a blank nor a comma. -/
theorem leading?_qualified (hbase : isIdentifier base = true) (package : Option Text)
    (hpackage : ∀ p ∈ package, isIdentifier p = true) (harguments : IsArguments arguments) :
    ∃ first rest, leading? (packageText package ++ (base ++ arguments)) = some (first, rest) ∧
      rest.head?.any isBlank = false ∧ (Text.trimLeft rest).head? ≠ some ',' := by
  obtain ⟨hword, hblank, hcomma⟩ := harguments.head
  cases package with
  | none => exact ⟨base, arguments, leading?_of_isIdentifier hbase hword, hblank, hcomma⟩
  | some p =>
      have hdot : isBlank '.' = false := by decide
      refine ⟨p, '.' :: (base ++ arguments), leading?_package (hpackage p rfl) _, hdot, ?_⟩
      rw [Text.trimLeft_cons hdot]
      exact fun h => absurd (Option.some.inj h) (by decide)

theorem leading?_star (t : Text) : leading? ('*' :: t) = none := by
  have hstart : isIdentStart '*' = false := by decide
  rw [leading?, hstart]
  rfl

/-- The line of an embedded field without its tag. -/
def embeddedLine (star : Bool) (package : Option Text) (base arguments : Text) : Text :=
  starText star ++ (packageText package ++ (base ++ arguments))

/-- What an identifier leads does not start with a star. -/
theorem head?_ne_star {line rest : Text} (h : leading? line = some (name, rest)) :
    line.head? ≠ some '*' := by
  intro hhead
  cases line with
  | nil => exact nomatch hhead
  | cons c u =>
      rw [Option.some.inj hhead, leading?_star] at h
      exact nomatch h

/-- The star is dropped where there is one. -/
theorem unstarred_embeddedLine (star : Bool) {package : Option Text}
    (hpackage : ∀ p ∈ package, isIdentifier p = true) (hbase : isIdentifier base = true)
    (harguments : IsArguments arguments) :
    (if (embeddedLine star package base arguments).head? = some '*'
      then (embeddedLine star package base arguments).tail
      else embeddedLine star package base arguments) =
      packageText package ++ (base ++ arguments) := by
  cases star with
  | true => rfl
  | false =>
      obtain ⟨first, rest, hfirst, -⟩ := leading?_qualified hbase package hpackage harguments
      exact if_neg (head?_ne_star hfirst)

/-- The base of an embedded type is read. -/
theorem baseName?_embeddedLine (star : Bool) {package : Option Text}
    (hpackage : ∀ p ∈ package, isIdentifier p = true) (hbase : isIdentifier base = true)
    (harguments : IsArguments arguments) :
    baseName? (embeddedLine star package base arguments) = some base := by
  have hend : (if isBaseEnd arguments then some base else none) = some base :=
    if_pos harguments.isBaseEnd
  have hleading := leading?_of_isIdentifier hbase harguments.head.1
  rw [baseName?]
  dsimp only
  rw [unstarred_embeddedLine star hpackage hbase harguments]
  cases package with
  | none =>
      show (leading? (base ++ arguments)).bind _ = _
      rw [hleading]
      -- a dot would name a package, and no form of arguments starts with one
      cases harguments with
      | none => rfl
      | some ht => exact hend
  | some p =>
      rw [leading?_package (hpackage p rfl)]
      show (leading? (base ++ arguments)).bind _ = _
      rw [hleading]
      exact hend

/-- An embedded type is named after its base. -/
theorem ofClean?_embedded (star : Bool) {package : Option Text}
    (hpackage : ∀ p ∈ package, isIdentifier p = true) (hbase : isIdentifier base = true)
    (harguments : IsArguments arguments) :
    ofClean? (embeddedLine star package base arguments) =
      some ⟨[base], embeddedLine star package base arguments, .embedded⟩ := by
  have hnone : named? (embeddedLine star package base arguments) = none ∧
      multiName? (embeddedLine star package base arguments) = none := by
    -- a star starts no name; without one the first name has no blank and no comma behind it
    cases star with
    | true =>
        have hleading : leading? (embeddedLine true package base arguments) = none :=
          leading?_star _
        refine ⟨?_, ?_⟩
        · rw [named?, hleading]
          rfl
        · rw [multiName?, nameChain_of_none hleading]
    | false =>
        obtain ⟨first, rest, hfirst, hblank, hcomma⟩ :=
          leading?_qualified hbase package hpackage harguments
        exact ⟨named?_of_not_isBlank hfirst hblank, multiName?_of_last hfirst hcomma⟩
  rw [ofClean?, hnone.1, hnone.2, embedded?, baseName?_embeddedLine star hpackage hbase harguments]
  rfl

end FieldLine

end GoLayout
