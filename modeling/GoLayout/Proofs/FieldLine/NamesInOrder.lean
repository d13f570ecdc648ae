import GoLayout.FieldLine.Shape
import GoLayout.Proofs.FieldLine.Shape
import GoLayout.Proofs.Source.WholeWord

/-! # Where a field line has its names

    Whatever a text is read as, the names that it declares stand in it in order as whole words,
    and in front of the last one no bracket opens (`FieldLine.classify_namesInOrder`).  So a text
    that goes on behind an opening bracket has its names in front of that bracket
    (`NamesInOrder.of_append`).  The route:

    * a list of names is read along its commas (`FieldLine.nameChain_namesInOrder`), and a
      base type stands behind a star and a package;
    * what is taken away around the declaration, blanks and a tag, is next to no name
      (`Tag.exists_strip`). -/

namespace GoLayout

open Text

/-- Does a bracket open with the character that can stay open over lines? -/
def isOpening (c : Char) : Bool := c == '(' || c == '['

/-- The names stand in the text one after the other as whole words, and no bracket opens in front
    of the last one. -/
inductive NamesInOrder : Text → List Text → Prop where
  | nil (t : Text) : NamesInOrder t []
  | cons {gap name rest : Text} {names : List Text} :
      (∀ c ∈ gap, isOpening c = false) → endsInWord gap = false →
      Identifier.isIdentifier name = true → startsInWord rest = false →
      NamesInOrder rest names → NamesInOrder (gap ++ (name ++ rest)) (name :: names)

/-- A character of a class without brackets opens none. -/
theorem isOpening_of_class {p : Char → Bool} {c : Char} (h : p c = true) (hround : p '(' = false)
    (hsquare : p '[' = false) : isOpening c = false := by
  rw [isOpening, Bool.or_eq_false_iff, beq_eq_false_iff_ne, beq_eq_false_iff_ne]
  constructor
  · rintro rfl
    rw [hround] at h
    cases h
  · rintro rfl
    rw [hsquare] at h
    cases h

theorem isOpening_of_isWord {c : Char} (h : isWord c = true) : isOpening c = false :=
  isOpening_of_class h (by decide) (by decide)

theorem isOpening_of_isBlank {c : Char} (h : isBlank c = true) : isOpening c = false :=
  isOpening_of_class h (by decide) (by decide)

namespace NamesInOrder

variable {t a b gap name : Text} {names : List Text}

/-- Text in front of the names. -/
theorem prepend (h : NamesInOrder t names) (ha : ∀ c ∈ a, isOpening c = false)
    (hend : endsInWord a = false) : NamesInOrder (a ++ t) names := by
  cases h with
  | nil => exact .nil _
  | @cons gap name rest names hgap hgapEnd hname hrest hnames =>
      rw [← List.append_assoc]
      refine .cons (fun c hc => ?_) (endsInWord_append hend hgapEnd) hname hrest hnames
      rcases List.mem_append.mp hc with hc | hc
      · exact ha c hc
      · exact hgap c hc

theorem prepend_blank (h : NamesInOrder t names) (ha : AllBlank a) : NamesInOrder (a ++ t) names :=
  h.prepend (fun c hc => isOpening_of_isBlank (ha c hc)) (endsInWord_of_allBlank ha)

theorem prepend_one {c : Char} (h : NamesInOrder t names) (hopening : isOpening c = false)
    (hword : isWord c = false) : NamesInOrder ([c] ++ t) names :=
  h.prepend (List.forall_mem_singleton.mpr hopening) hword

/-- Text behind the names. -/
theorem append (h : NamesInOrder t names) (hb : startsInWord b = false) :
    NamesInOrder (t ++ b) names := by
  induction h with
  | nil => exact .nil _
  | cons hgap hend hname hrest _ ih =>
      rw [List.append_assoc, List.append_assoc]
      exact .cons hgap hend hname (startsInWord_append hrest hb) ih

/-- The first names of a list. -/
theorem of_first {first : List Text} (h : NamesInOrder t names) (hfirst : first <+: names) :
    NamesInOrder t first := by
  induction h generalizing first with
  | nil =>
      rw [List.prefix_nil.mp hfirst]
      exact .nil _
  | cons hgap hend hname hrest _ ih =>
      cases first with
      | nil => exact .nil _
      | cons n first =>
          obtain ⟨rfl, hmore⟩ := List.cons_prefix_cons.mp hfirst
          exact .cons hgap hend hname hrest (ih hmore)

/-- In a text that goes on behind an opening bracket the names stand in front of the bracket. -/
theorem of_append (h : NamesInOrder t names) :
    ∀ {a}, t = a ++ b → (b = [] ∨ ∃ c ∈ a, isOpening c = true) → NamesInOrder a names := by
  induction h with
  | nil => intro a _ _; exact .nil _
  | @cons gap name rest names hgap hend hname hrest hnames ih =>
      intro a ha hopening
      rcases hopening with rfl | ⟨c, hc, hopening⟩
      · rw [List.append_nil] at ha
        rw [← ha]
        exact .cons hgap hend hname hrest hnames
      · -- the bracket stands neither in the gap nor in the name, so these are part of the text
        have hfront : ∀ d ∈ gap ++ name, isOpening d = false := by
          intro d hd
          rcases List.mem_append.mp hd with hd | hd
          · exact hgap d hd
          · exact isOpening_of_isWord (Identifier.isWord_of_mem hname d hd)
        rw [← List.append_assoc] at ha
        rcases List.append_eq_append_iff.mp ha with ⟨u, rfl, rfl⟩ | ⟨u, hu, -⟩
        · have hmem : c ∈ u := by
            rcases List.mem_append.mp hc with hd | hd
            · rw [hfront c hd] at hopening
              exact nomatch hopening
            · exact hd
          have hne : u ≠ [] := List.ne_nil_of_mem hmem
          rw [List.append_assoc]
          rw [startsInWord_append_of_ne_nil hne] at hrest
          exact .cons hgap hend hname hrest (ih rfl (.inr ⟨c, hmem, hopening⟩))
        · rw [hfront c (hu ▸ List.mem_append_left _ hc)] at hopening
          exact nomatch hopening

end NamesInOrder

/-! ## What is taken away around a declaration -/

namespace Tag

/-- A tag starts with a quote, and so outside of words. -/
theorem startsInWord_of_isTag {t : Text} (h : isTag t = true) : startsInWord t = false := by
  have hraw : isWord rawQuote = false := by decide
  have hquote : isWord '"' = false := by decide
  cases t with
  | nil => rfl
  | cons c t =>
      rw [isTag, afterLiteral?] at h
      split at h
      · next hc => rw [hc]; exact hraw
      · split at h
        · next hc => rw [hc]; exact hquote
        · exact nomatch h

/-- Behind the text before a tag stands the tag. -/
theorem before?_eq_some {t before : Text} :
    ∀ {mayStart}, before? mayStart t = some before →
      ∃ tag, t = before ++ tag ∧ isTag tag = true := by
  induction t generalizing before with
  | nil => intro mayStart h; exact nomatch h
  | cons c t ih =>
      intro mayStart h
      rw [before?] at h
      split at h
      · next htag =>
        obtain rfl := Option.some.inj h
        exact ⟨c :: t, rfl, (Bool.and_eq_true_iff.mp htag).2⟩
      · obtain ⟨before, hbefore, rfl⟩ := Option.map_eq_some_iff.mp h
        obtain ⟨tag, rfl, htag⟩ := ih hbefore
        exact ⟨tag, rfl, htag⟩

/-- In front of a field stand blanks, and behind it a blank, a tag or nothing. -/
theorem exists_strip (t : Text) : ∃ before behind, AllBlank before ∧ startsInWord behind = false ∧
    t = before ++ (strip t ++ behind) := by
  rw [strip]
  cases hbefore : before? true t with
  | none =>
      obtain ⟨margin, blanks, hmargin, hblanks, ht⟩ := Text.exists_trim t
      exact ⟨margin, blanks, hmargin, startsInWord_of_allBlank hblanks, ht⟩
  | some u =>
      obtain ⟨tag, rfl, htag⟩ := before?_eq_some hbefore
      obtain ⟨margin, blanks, hmargin, hblanks, hu⟩ := Text.exists_trim u
      refine ⟨margin, blanks ++ tag, hmargin,
        startsInWord_append (startsInWord_of_allBlank hblanks) (startsInWord_of_isTag htag), ?_⟩
      show u ++ tag = margin ++ (trim u ++ (blanks ++ tag))
      rw [← List.append_assoc (trim u), ← List.append_assoc, ← hu]

end Tag

/-! ## The names of a declaration -/

namespace FieldLine

open Identifier

variable {line : Text} {l : FieldLine}

/-- An identifier at the start of a line. -/
theorem namesInOrder_of_leading? {name rest : Text} {names : List Text}
    (h : leading? line = some (name, rest)) (hrest : NamesInOrder rest names) :
    NamesInOrder line (name :: names) := by
  obtain ⟨rfl, hname, hword⟩ := leading?_eq_some h
  show NamesInOrder ([] ++ (name ++ rest)) (name :: names)
  exact .cons nofun rfl hname hword hrest

/-- The name of a line stands in front of its type. -/
theorem named?_namesInOrder (h : named? line = some l) : NamesInOrder line l.names := by
  obtain ⟨⟨name, rest⟩, hleading, h⟩ := Option.bind_eq_some_iff.mp h
  obtain ⟨type, -, h⟩ := Option.bind_eq_some_iff.mp h
  split at h
  · exact nomatch h
  · obtain rfl := Option.some.inj h
    exact namesInOrder_of_leading? hleading (.nil rest)

/-- The names of a chain. -/
theorem nameChain_namesInOrder (line : Text) :
    NamesInOrder line ((nameChain line).map Prod.fst) := by
  induction hlen : line.length using Nat.strongRecOn generalizing line with
  | ind n ih =>
      subst hlen
      cases hleading : leading? line with
      | none =>
          rw [nameChain_of_none hleading]
          exact .nil line
      | some found =>
          obtain ⟨name, rest⟩ := found
          have hlt := leading?_length hleading
          -- behind a comma the names go on with blanks at most in front of the next one
          by_cases hcomma : (trimLeft rest).head? = some ','
          · obtain ⟨more, hmore⟩ : ∃ more, trimLeft rest = ',' :: more :=
              List.head?_eq_some_iff.mp hcomma
            rw [nameChain_comma hleading hmore]
            refine namesInOrder_of_leading? hleading ?_
            obtain ⟨margin, hmargin, hrest⟩ := exists_trimLeft rest
            obtain ⟨blanks, hblanks, hmore'⟩ := exists_trimLeft more
            have hgap : rest = margin ++ ([','] ++ (blanks ++ trimLeft more)) := by
              rw [← hmore', List.singleton_append, ← hmore]
              exact hrest
            rw [hgap]
            have hlast := ih (trimLeft more).length (by
              have hle := trimLeft_length_le more
              rw [hgap] at hlt
              simp only [List.length_append, List.length_singleton] at hlt
              omega) (trimLeft more) rfl
            have hbehind := (hlast.prepend_blank hblanks).prepend_one (c := ',') rfl rfl
            exact hbehind.prepend_blank hmargin
          · rw [nameChain_last hleading hcomma]
            exact namesInOrder_of_leading? hleading (.nil rest)

/-- The names that are taken are the first ones of the chain. -/
theorem longest?_names (chain : List (Text × Text)) :
    ∀ {before names : List Text} {type : Text}, longest? before chain = some (names, type) →
      names <+: before ++ chain.map Prod.fst := by
  induction chain with
  | nil => intro before names type h; exact nomatch h
  | cons entry chain ih =>
      intro before names type h
      obtain ⟨name, rest⟩ := entry
      rw [longest?] at h
      split at h
      · next found hfound =>
        obtain rfl := Option.some.inj h
        have hprefix := ih hfound
        rwa [List.append_assoc] at hprefix
      · obtain ⟨t, -, ht⟩ := Option.map_eq_some_iff.mp h
        obtain ⟨rfl, -⟩ := Prod.mk.inj ht
        exact (List.prefix_append_right_inj before).mpr ⟨chain.map Prod.fst, rfl⟩

/-- The names of a line stand in it in their order. -/
theorem multiName?_namesInOrder (h : multiName? line = some l) : NamesInOrder line l.names := by
  have hchain := nameChain_namesInOrder line
  rw [multiName?] at h
  split at h
  · cases h
  · next name rest more heq =>
    obtain ⟨⟨names, type⟩, hlongest, rfl⟩ := Option.map_eq_some_iff.mp h
    rw [heq] at hchain
    exact hchain.of_first (longest?_names more hlongest)

/-- A base type stands behind a star and a package, if there are any. -/
theorem baseName?_namesInOrder {base : Text} (h : baseName? line = some base) :
    NamesInOrder line [base] := by
  have hstar : NamesInOrder (if line.head? = some '*' then line.tail else line) [base] →
      NamesInOrder line [base] := by
    intro hnames
    split at hnames
    · next hhead =>
      obtain ⟨t, rfl⟩ := List.head?_eq_some_iff.mp hhead
      exact hnames.prepend_one rfl rfl
    · exact hnames
  refine hstar ?_
  obtain ⟨⟨first, rest⟩, hfirst, h⟩ := Option.bind_eq_some_iff.mp h
  generalize (if line.head? = some '*' then line.tail else line) = body at hfirst
  dsimp only at h
  split at h
  · next t =>
    obtain ⟨⟨name, behind⟩, hname, h⟩ := Option.bind_eq_some_iff.mp h
    split at h
    · obtain rfl := Option.some.inj h
      obtain ⟨rfl, hidentifier, -⟩ := leading?_eq_some hfirst
      -- a package and the dot behind it open no bracket, so that they may stand in front of the
      -- base
      have hpackage : ∀ c ∈ first ++ ['.'], isOpening c = false := by
        intro c hc
        rcases List.mem_append.mp hc with hc | hc
        · exact isOpening_of_isWord (isWord_of_mem hidentifier c hc)
        · rw [List.mem_singleton.mp hc]
          decide
      have hdot : endsInWord (first ++ ['.']) = false :=
        endsInWord_append_of_ne_nil first (List.cons_ne_nil '.' [])
      rw [List.append_cons]
      exact (namesInOrder_of_leading? hname (.nil behind)).prepend hpackage hdot
    · exact nomatch h
  · split at h
    · obtain rfl := Option.some.inj h
      exact namesInOrder_of_leading? hfirst (.nil rest)
    · exact nomatch h

/-- The names of a field line stand in it in order, in front of any bracket. -/
theorem classify_namesInOrder {text : Text} (h : classify text = some l) :
    NamesInOrder text l.names := by
  have hclean : NamesInOrder (Tag.strip text) l.names := by
    rcases (Option.orElse_eq_some _ _ _).mp h with hnamed | ⟨-, hmore⟩
    · exact named?_namesInOrder hnamed
    rcases (Option.orElse_eq_some _ _ _).mp hmore with hmulti | ⟨-, hembedded⟩
    · exact multiName?_namesInOrder hmulti
    · obtain ⟨base, hbase, rfl⟩ := Option.map_eq_some_iff.mp hembedded
      exact baseName?_namesInOrder hbase
  obtain ⟨before, behind, hbefore, hbehind, htext⟩ := Tag.exists_strip text
  rw [htext]
  exact (hclean.append hbehind).prepend_blank hbefore

end FieldLine

end GoLayout
