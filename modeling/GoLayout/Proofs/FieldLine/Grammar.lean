import GoLayout.Proofs.FieldLine.NamesInOrder

/-! # The grammar of field lines

    The three shapes of a field line are told as ways to write the line, without any order among
    them.  A line has at most one of them, it is read as what it is written as, and where a list of
    names can be divided from its type at several places the longest list counts
    (`FieldLine.classify_grammar`).  The route:

    * what follows the first name decides how a line with names goes on (`HasNames.cons_iff`), so
      that its names are some of the chain of names and the longest ones are found
      (`longest?_nameChain`);
    * each shape is read exactly if the line is written in it (`named?_eq_some`,
      `multiName?_eq_some`, `embedded?_eq_some`);
    * a line with one name has no comma behind it, one with several has, and an embedded type is
      read as nothing else. -/

namespace GoLayout

namespace Text.EndsSolid

variable {t : Text}

/-- Behind a comma and blanks a text ends as it did. -/
theorem behindComma {more : Text} (h : EndsSolid t) (hcomma : trimLeft t = ',' :: more) :
    EndsSolid (trimLeft more) := by
  have hcode : ',' :: more <:+ t := hcomma ▸ List.dropWhile_suffix isBlank
  exact h.of_suffix
    ((List.dropWhile_suffix isBlank).trans ((List.suffix_cons ',' more).trans hcode))

/-- Behind an identifier a text ends as it did. -/
theorem behindName {name rest : Text} (h : EndsSolid t)
    (hleading : Identifier.leading? t = some (name, rest)) : Text.EndsSolid rest :=
  h.of_suffix ⟨name, (Identifier.leading?_append hleading).symm⟩

end Text.EndsSolid

namespace FieldLine

open Identifier

/-- A type that fills the rest of its line, without blanks around it. -/
structure FillsLine (type : Text) : Prop where
  solid : Text.Solid type
  oneLine : '\n' ∉ type

/-- Identifiers with a comma between neighbours, and blanks around the commas. -/
inductive Listed : List Text → Text → Prop where
  | one {name : Text} : isIdentifier name = true → Listed [name] name
  | cons {name before behind list : Text} {names : List Text} :
      isIdentifier name = true → Text.AllBlank before → Text.AllBlank behind → Listed names list →
      Listed (name :: names) (name ++ (before ++ ',' :: (behind ++ list)))

/-- A list of names, blanks and a type. -/
def HasNames (line : Text) (names : List Text) (type : Text) : Prop :=
  ∃ list blanks, Listed names list ∧ blanks ≠ [] ∧ Text.AllBlank blanks ∧ FillsLine type ∧
    line = list ++ (blanks ++ type)

/-- One name and a type that starts without a comma. -/
def IsNamed (line name type : Text) : Prop :=
  HasNames line [name] type ∧ type.head? ≠ some ','

/-- Several names and a type. -/
def IsMultiName (line : Text) (names : List Text) (type : Text) : Prop :=
  HasNames line names type ∧ 2 ≤ names.length

/-- A base type, perhaps behind a star and a package, and perhaps with type arguments. -/
def IsEmbedded (line base : Text) : Prop :=
  ∃ star package arguments, (∀ p ∈ package, isIdentifier p = true) ∧ isIdentifier base = true ∧
    IsArguments arguments ∧ line = embeddedLine star package base arguments

/-- The line is written in the shape. -/
def HasShape (line : Text) : FieldShape → Prop
  | .named => ∃ name type, IsNamed line name type
  | .multiName => ∃ names type, IsMultiName line names type
  | .embedded => ∃ base, IsEmbedded line base

/-- What a line declares. Of the lists of names that it can start with the longest one counts. -/
inductive Grammar (line : Text) : FieldLine → Prop where
  | named {name type : Text} : IsNamed line name type → Grammar line ⟨[name], type, .named⟩
  | multiName {names : List Text} {type : Text} : IsMultiName line names type →
      (∀ {others other}, IsMultiName line others other → others.length ≤ names.length) →
      Grammar line ⟨names, type, .multiName⟩
  | embedded {base : Text} : IsEmbedded line base → Grammar line ⟨[base], line, .embedded⟩

variable {line rest name type : Text} {names : List Text} {l : FieldLine}

/-! ## Names and a type -/

/-- Blanks in front of a type are taken away, and nothing of the type is. -/
theorem FillsLine.trimLeft_append (h : FillsLine type) {blanks : Text}
    (hblanks : Text.AllBlank blanks) : Text.trimLeft (blanks ++ type) = type := by
  have htrim := h.solid.trimLeft []
  rw [List.append_nil] at htrim
  rw [Text.trimLeft_append hblanks, htrim]

/-- A type behind a name stands behind blanks and fills the rest of the line. -/
theorem typeAfter?_eq_some (hend : Text.EndsSolid rest) : typeAfter? rest = some type ↔
    ∃ blanks, blanks ≠ [] ∧ Text.AllBlank blanks ∧ FillsLine type ∧ rest = blanks ++ type := by
  constructor
  · intro h
    cases rest with
    | nil => cases h
    | cons c t =>
        rw [typeAfter?] at h
        split at h
        · next hguard =>
          obtain rfl := Option.some.inj h
          rw [Bool.and_eq_true, Bool.and_eq_true, Bool.not_eq_true', Bool.not_eq_true',
            List.isEmpty_eq_false_iff, List.contains_eq_mem, decide_eq_false_iff_not] at hguard
          obtain ⟨⟨hblank, hne⟩, hline⟩ := hguard
          -- the blank that is asked for, and any others behind it
          obtain ⟨margin, hmargin, hsplit⟩ := Text.exists_trimLeft t
          refine ⟨c :: margin, List.cons_ne_nil _ _, List.forall_mem_cons.mpr ⟨hblank, hmargin⟩,
            ⟨(hend.of_suffix (List.suffix_cons c t)).solid_trimLeft hne, hline⟩, ?_⟩
          rw [List.cons_append, ← hsplit]
        · cases h
  · rintro ⟨blanks, hne, hblanks, htype, rfl⟩
    cases blanks with
    | nil => exact absurd rfl hne
    | cons c margin =>
        obtain ⟨hc, hmargin⟩ := List.forall_mem_cons.mp hblanks
        obtain ⟨d, u, hcons, -⟩ := htype.solid.head
        have hempty : type.isEmpty = false := by rw [hcons]; rfl
        have hline : type.contains '\n' = false := by
          rw [List.contains_eq_mem, decide_eq_false]
          exact htype.oneLine
        rw [List.cons_append, typeAfter?, htype.trimLeft_append hmargin, hc, hempty, hline]
        rfl

theorem Listed.ne_nil {list : Text} (h : Listed names list) : names ≠ [] := by
  cases h with
  | one => exact List.cons_ne_nil _ _
  | cons => exact List.cons_ne_nil _ _

/-- A list of names starts with no blank. -/
theorem Listed.trimLeft_append {list : Text} (h : Listed names list) (u : Text) :
    Text.trimLeft (list ++ u) = list ++ u := by
  cases h with
  | one hname => exact (solid hname).trimLeft u
  | cons hname =>
      rw [List.append_assoc]
      exact (solid hname).trimLeft _

theorem startsInWord_blanks {blanks : Text} (hne : blanks ≠ []) (hblanks : Text.AllBlank blanks)
    (u : Text) : Text.startsInWord (blanks ++ u) = false :=
  (Text.startsInWord_append_of_ne_nil hne u).trans (Text.startsInWord_of_allBlank hblanks)

theorem startsInWord_comma {before : Text} (hbefore : Text.AllBlank before) (u : Text) :
    Text.startsInWord (before ++ ',' :: u) = false :=
  Text.startsInWord_append (Text.startsInWord_of_allBlank hbefore)
    (show isWord ',' = false by decide)

theorem trimLeft_comma {before : Text} (hbefore : Text.AllBlank before) (u : Text) :
    Text.trimLeft (before ++ ',' :: u) = ',' :: u := by
  rw [Text.trimLeft_append hbefore]
  exact Text.trimLeft_cons (by decide) u

/-- What follows the first name decides how a line with names goes on. -/
theorem HasNames.cons_iff (hend : Text.EndsSolid line) (h : leading? line = some (name, rest)) :
    HasNames line names type ↔
      names = [name] ∧ typeAfter? rest = some type ∨
      ∃ more others, Text.trimLeft rest = ',' :: more ∧ names = name :: others ∧
        HasNames (Text.trimLeft more) others type := by
  obtain ⟨hline, hname, -⟩ := leading?_eq_some h
  have hrest := hend.behindName h
  constructor
  · rintro ⟨list, blanks, hlisted, hne, hblanks, htype, hsplit⟩
    -- a list is one name, or a name, a comma and another list
    cases hlisted with
    | one hfirst =>
        -- the name that is read first is the first one of the list
        have hleading := leading?_of_isIdentifier hfirst (startsInWord_blanks hne hblanks type)
        rw [← hsplit, h] at hleading
        obtain ⟨rfl, rfl⟩ := Prod.mk.inj (Option.some.inj hleading)
        exact .inl ⟨rfl, (typeAfter?_eq_some hrest).mpr ⟨blanks, hne, hblanks, htype, rfl⟩⟩
    | @cons first before behind list others hfirst hbefore hbehind hothers =>
        have hsplit' : line =
            first ++ (before ++ ',' :: (behind ++ (list ++ (blanks ++ type)))) := by
          rw [hsplit]
          simp only [List.append_assoc, List.cons_append]
        have hleading := leading?_of_isIdentifier hfirst
          (startsInWord_comma hbefore (behind ++ (list ++ (blanks ++ type))))
        rw [← hsplit', h] at hleading
        obtain ⟨rfl, rfl⟩ := Prod.mk.inj (Option.some.inj hleading)
        refine .inr ⟨_, others, trimLeft_comma hbefore _, rfl, ?_⟩
        rw [Text.trimLeft_append hbehind, hothers.trimLeft_append]
        exact ⟨list, blanks, hothers, hne, hblanks, htype, rfl⟩
  · rintro (⟨rfl, htype⟩ | ⟨more, others, hcomma, rfl, hothers⟩)
    · obtain ⟨blanks, hne, hblanks, hfills, hsplit⟩ := (typeAfter?_eq_some hrest).mp htype
      exact ⟨name, blanks, .one hname, hne, hblanks, hfills, hsplit ▸ hline⟩
    · obtain ⟨list, blanks, hlisted, hne, hblanks, htype, hmore⟩ := hothers
      obtain ⟨before, hbefore, hrest'⟩ := Text.exists_trimLeft rest
      obtain ⟨behind, hbehind, hmore'⟩ := Text.exists_trimLeft more
      refine ⟨_, blanks, .cons hname hbefore hbehind hlisted, hne, hblanks, htype, ?_⟩
      rw [hline, hrest', hcomma, hmore', hmore]
      simp only [List.append_assoc, List.cons_append]

/-- A line with names starts with one. -/
theorem HasNames.leading (h : HasNames line names type) :
    ∃ name rest, leading? line = some (name, rest) := by
  obtain ⟨list, blanks, hlisted, hne, hblanks, -, rfl⟩ := h
  cases hlisted with
  | one hname => exact ⟨_, _, leading?_of_isIdentifier hname (startsInWord_blanks hne hblanks _)⟩
  | @cons name before behind list names hname hbefore =>
      have hsplit : name ++ (before ++ ',' :: (behind ++ list)) ++ (blanks ++ type) =
          name ++ (before ++ ',' :: (behind ++ list ++ (blanks ++ type))) := by
        simp only [List.append_assoc, List.cons_append]
      rw [hsplit]
      exact ⟨_, _, leading?_of_isIdentifier hname (startsInWord_comma hbefore _)⟩

/-- The type behind the names fills the rest of the line. -/
theorem HasNames.fillsLine (h : HasNames line names type) : FillsLine type := by
  obtain ⟨list, blanks, -, -, -, htype, -⟩ := h
  exact htype

theorem HasNames.ne_nil (h : HasNames line names type) : names ≠ [] := by
  obtain ⟨list, blanks, hlisted, -⟩ := h
  exact hlisted.ne_nil

/-- Lists of one length at the start of a line are one list, with one type behind it. -/
theorem HasNames.unique {others : List Text} {other : Text} (hend : Text.EndsSolid line)
    (h : HasNames line names type) (hother : HasNames line others other)
    (hlength : names.length = others.length) : names = others ∧ type = other := by
  induction names generalizing line others with
  | nil => exact absurd rfl h.ne_nil
  | cons first names ih =>
      -- both lists start with the name that the line starts with, and both end there or neither
      -- does
      obtain ⟨name, rest, hleading⟩ := h.leading
      have hrest := hend.behindName hleading
      rcases (HasNames.cons_iff hend hleading).mp h with
          ⟨hnames, htype⟩ | ⟨more, tail, hcomma, hnames, htail⟩ <;>
        rcases (HasNames.cons_iff hend hleading).mp hother with
          ⟨rfl, htype'⟩ | ⟨more', tail', hcomma', rfl, htail'⟩
      · rw [hnames]
        exact ⟨rfl, Option.some.inj (htype.symm.trans htype')⟩
      · rw [hnames] at hlength
        exact absurd (List.length_eq_zero_iff.mp (Nat.succ.inj hlength).symm) htail'.ne_nil
      · rw [hnames] at hlength
        exact absurd (List.length_eq_zero_iff.mp (Nat.succ.inj hlength)) htail.ne_nil
      · obtain ⟨rfl, rfl⟩ := List.cons.inj hnames
        obtain ⟨-, rfl⟩ := List.cons.inj (hcomma.symm.trans hcomma')
        obtain ⟨rfl, rfl⟩ := ih (hrest.behindComma hcomma) htail htail' (Nat.succ.inj hlength)
        exact ⟨rfl, rfl⟩

/-! ## The longest list of names -/

/-- Of the readings of a line the one with the most names, if there are any. -/
inductive IsLongest (Reading : List Text → Text → Prop) : Option (List Text × Text) → Prop where
  | none : (∀ names type, ¬ Reading names type) → IsLongest Reading none
  | some {names : List Text} {type : Text} : Reading names type →
      (∀ {others other}, Reading others other → others.length ≤ names.length) →
      IsLongest Reading (some (names, type))

/-- What the longest reading is depends only on which readings there are. -/
theorem IsLongest.congr {Reading Reading' : List Text → Text → Prop}
    {found? : Option (List Text × Text)}
    (hiff : ∀ names type, Reading names type ↔ Reading' names type) (h : IsLongest Reading found?) :
    IsLongest Reading' found? := by
  cases h with
  | none hnone => exact .none fun names type h => hnone names type ((hiff names type).mpr h)
  | some hfound hmax => exact .some ((hiff _ _).mp hfound) fun h => hmax ((hiff _ _).mpr h)

/-- The names of a line with the names before it in front. -/
def GoesOn (before : List Text) (line : Text) (names : List Text) (type : Text) : Prop :=
  ∃ more, names = before ++ more ∧ HasNames line more type

/-- The names behind a comma with the names before it in front. -/
def GoesOnBehindComma (before : List Text) (rest : Text) (names : List Text) (type : Text) : Prop :=
  ∃ more, Text.trimLeft rest = ',' :: more ∧ GoesOn before (Text.trimLeft more) names type

/-- With the names behind the comma known, so are the names from the one in front of it. -/
theorem isLongest_cons {before : List Text} {chain : List (Text × Text)}
    (hend : Text.EndsSolid line) (h : leading? line = some (name, rest))
    (hchain : IsLongest (GoesOnBehindComma (before ++ [name]) rest)
      (longest? (before ++ [name]) chain)) :
    IsLongest (GoesOn before line) (longest? before ((name, rest) :: chain)) := by
  rw [longest?]
  generalize longest? (before ++ [name]) chain = found? at hchain
  -- a list that goes on behind a comma is longer than the one that ends here
  cases hchain with
  | some hfound hmax =>
      obtain ⟨more, hcomma, tail, rfl, htail⟩ := hfound
      refine .some ⟨name :: tail, List.append_assoc _ _ _,
        (HasNames.cons_iff hend h).mpr (.inr ⟨more, tail, hcomma, rfl, htail⟩)⟩ ?_
      rintro others other ⟨others, rfl, hothers⟩
      rcases (HasNames.cons_iff hend h).mp hothers with
        ⟨rfl, -⟩ | ⟨more', tail', hcomma', rfl, htail'⟩
      · exact (List.prefix_append _ tail).length_le
      · rw [List.append_cons]
        exact hmax ⟨more', hcomma', tail', rfl, htail'⟩
  | none hnone =>
      have hsingle {others : List Text} {other : Text} (hothers : HasNames line others other) :
          others = [name] ∧ typeAfter? rest = some other := by
        rcases (HasNames.cons_iff hend h).mp hothers with hlast | ⟨more, tail, hcomma, -, htail⟩
        · exact hlast
        · exact absurd ⟨more, hcomma, tail, rfl, htail⟩ (hnone _ _)
      cases htype : typeAfter? rest with
      | none =>
          refine .none ?_
          rintro names type ⟨others, -, hothers⟩
          have hsome := (hsingle hothers).2
          rw [htype] at hsome
          cases hsome
      | some type =>
          refine .some ⟨[name], rfl, (HasNames.cons_iff hend h).mpr (.inl ⟨rfl, htype⟩)⟩ ?_
          rintro others other ⟨others, rfl, hothers⟩
          rw [(hsingle hothers).1]

/-- Behind the first name of a chain stands the chain of what follows its comma. -/
theorem isLongest_tail (h : leading? line = some (name, rest))
    (hmore : ∀ {more}, Text.trimLeft rest = ',' :: more →
      ∀ before, IsLongest (GoesOn before (Text.trimLeft more))
        (longest? before (nameChain (Text.trimLeft more)))) :
    ∃ chain, nameChain line = (name, rest) :: chain ∧
      ∀ before, IsLongest (GoesOnBehindComma before rest) (longest? before chain) := by
  -- without a comma behind the name no list goes on, and the chain ends
  by_cases hcomma : (Text.trimLeft rest).head? = some ','
  · obtain ⟨more, hcomma⟩ := List.head?_eq_some_iff.mp hcomma
    refine ⟨_, nameChain_comma h hcomma, fun before => ?_⟩
    refine (hmore hcomma before).congr fun names type => ⟨fun h => ⟨more, hcomma, h⟩, ?_⟩
    rintro ⟨more', hcomma', hnames⟩
    obtain ⟨-, rfl⟩ := List.cons.inj (hcomma.symm.trans hcomma')
    exact hnames
  · refine ⟨_, nameChain_last h hcomma, fun before => .none ?_⟩
    rintro names type ⟨more, hmore, -⟩
    rw [hmore] at hcomma
    exact hcomma rfl

/-- The longest list that the chain of names gives is the longest that the line starts with. -/
theorem longest?_nameChain (line : Text) : Text.EndsSolid line → ∀ before,
    IsLongest (GoesOn before line) (longest? before (nameChain line)) := by
  -- the chain is read from the front, so that the induction is on its reading
  induction line using nameChain.induct with
  | case1 line hnone =>
      intro _ before
      rw [nameChain_of_none hnone]
      refine .none ?_
      rintro names type ⟨more, -, hmore⟩
      obtain ⟨name, rest, hleading⟩ := hmore.leading
      exact nomatch hnone.symm.trans hleading
  | case2 line name rest hleading ih =>
      intro hend before
      have hrest := hend.behindName hleading
      obtain ⟨chain, hchain, htail⟩ := isLongest_tail hleading fun {more} hcomma =>
        ih more hcomma (hrest.behindComma hcomma)
      rw [hchain]
      exact isLongest_cons hend hleading (htail (before ++ [name]))

/-! ## The three readers -/

/-- A line with several names goes on behind the first of them. -/
theorem isMultiName_iff (hend : Text.EndsSolid line) (h : leading? line = some (name, rest)) :
    IsMultiName line names type ↔ GoesOnBehindComma [name] rest names type := by
  constructor
  · rintro ⟨hnames, hlength⟩
    rcases (HasNames.cons_iff hend h).mp hnames with ⟨rfl, -⟩ | ⟨more, tail, hcomma, rfl, htail⟩
    · exact absurd hlength (Nat.not_succ_le_self 1)
    · exact ⟨more, hcomma, tail, rfl, htail⟩
  · rintro ⟨more, hcomma, tail, rfl, htail⟩
    exact ⟨(HasNames.cons_iff hend h).mpr (.inr ⟨more, tail, hcomma, rfl, htail⟩),
      Nat.succ_le_succ (List.length_pos_iff.mpr htail.ne_nil)⟩

/-- A line is read as one with a name exactly if it is one in the grammar. -/
theorem named?_eq_some (hend : Text.EndsSolid line) :
    named? line = some l ↔ ∃ name type, IsNamed line name type ∧ l = ⟨[name], type, .named⟩ := by
  constructor
  · intro h
    obtain ⟨⟨name, rest⟩, hleading, h⟩ := Option.bind_eq_some_iff.mp h
    obtain ⟨type, htype, h⟩ := Option.bind_eq_some_iff.mp h
    have hnames : HasNames line [name] type :=
      (HasNames.cons_iff hend hleading).mpr (.inl ⟨rfl, htype⟩)
    split at h
    · exact nomatch h
    · next hcomma =>
      obtain rfl := Option.some.inj h
      rw [hnames.fillsLine.solid.trim]
      exact ⟨name, type, ⟨hnames, hcomma⟩, rfl⟩
  · rintro ⟨name, type, ⟨hnames, hcomma⟩, rfl⟩
    -- the name that is read is the first one, and a list of one name ends behind it
    obtain ⟨first, rest, hleading⟩ := hnames.leading
    rcases (HasNames.cons_iff hend hleading).mp hnames with ⟨hname, htype⟩ | ⟨_, _, _, hname, htail⟩
    · obtain ⟨rfl, -⟩ := List.cons.inj hname
      rw [named?, hleading]
      show (typeAfter? rest).bind _ = _
      rw [htype]
      show (if type.head? = some ',' then none else some (FieldLine.mk [name] type.trim .named)) = _
      rw [if_neg hcomma, hnames.fillsLine.solid.trim]
    · exact absurd (List.cons.inj hname).2.symm htail.ne_nil

/-- The reader of several names finds the longest list. -/
theorem multiName?_isLongest (hend : Text.EndsSolid line) : ∃ found?,
    IsLongest (IsMultiName line) found? ∧
      multiName? line = found?.map fun (names, type) => ⟨names, type, .multiName⟩ := by
  cases hleading : leading? line with
  | none =>
      refine ⟨none, .none ?_, ?_⟩
      · rintro names type ⟨hnames, -⟩
        obtain ⟨name, rest, hsome⟩ := hnames.leading
        exact nomatch hleading.symm.trans hsome
      · rw [multiName?, nameChain_of_none hleading]
        rfl
  | some found =>
      obtain ⟨name, rest⟩ := found
      have hrest := hend.behindName hleading
      obtain ⟨chain, hchain, htail⟩ := isLongest_tail hleading fun hcomma =>
        longest?_nameChain _ (hrest.behindComma hcomma)
      have hlongest : IsLongest (IsMultiName line) (longest? [name] chain) :=
        (htail [name]).congr fun names type => (isMultiName_iff hend hleading).symm
      refine ⟨longest? [name] chain, hlongest, ?_⟩
      rw [multiName?, hchain]
      dsimp only
      -- what is found matters from here on only by being the longest
      generalize longest? [name] chain = found? at hlongest
      cases hlongest with
      | none => rfl
      | some hnames => rw [Option.map_some, hnames.1.fillsLine.solid.trim, Option.map_some]

/-- A line is read as one with several names exactly if it is one, and then with the most names that
    it can have. -/
theorem multiName?_eq_some (hend : Text.EndsSolid line) : multiName? line = some l ↔
    ∃ names type, IsMultiName line names type ∧
      (∀ {others other}, IsMultiName line others other → others.length ≤ names.length) ∧
      l = ⟨names, type, .multiName⟩ := by
  obtain ⟨found?, hlongest, hfound⟩ := multiName?_isLongest hend
  rw [hfound]
  cases hlongest with
  | none hnone =>
      refine ⟨nofun, ?_⟩
      rintro ⟨names, type, hnames, -⟩
      exact absurd hnames (hnone names type)
  | @some names type hnames hmax =>
      constructor
      · intro h
        exact ⟨names, type, hnames, hmax, (Option.some.inj h).symm⟩
      · rintro ⟨others, other, hothers, hlargest, rfl⟩
        -- two longest lists have the same number of names, and so they are the same
        have hlength := Nat.le_antisymm (hlargest hnames) (hmax hothers)
        obtain ⟨rfl, rfl⟩ := HasNames.unique hend hnames.1 hothers.1 hlength
        rfl

/-- What may stand behind an embedded type is nothing, or type arguments. -/
theorem isArguments_of_isBaseEnd {t : Text} (h : isBaseEnd t = true) : IsArguments t := by
  cases t with
  | nil => exact .none
  | cons c t =>
      rw [isBaseEnd.eq_def] at h
      split at h
      · next hnil => exact absurd hnil (List.cons_ne_nil c t)
      · next u hcons =>
        obtain ⟨rfl, rfl⟩ := List.cons.inj hcons
        rw [Bool.and_eq_true, beq_iff_eq, Bool.not_eq_true', List.contains_eq_mem,
          decide_eq_false_iff_not] at h
        obtain ⟨arguments, rfl⟩ := List.getLast?_eq_some_iff.mp h.1
        exact .some fun hmem => h.2 (List.mem_append_left _ hmem)
      · exact nomatch h

/-- The base of an embedded type is read exactly from the embedded types of the grammar. -/
theorem baseName?_eq_some {base : Text} : baseName? line = some base ↔ IsEmbedded line base := by
  constructor
  · intro h
    -- the star is taken off first, and then a package is told from the base by the dot
    obtain ⟨star, body, hline, hbody⟩ : ∃ star body, line = starText star ++ body ∧
        (if line.head? = some '*' then line.tail else line) = body := by
      by_cases hstar : line.head? = some '*'
      · obtain ⟨body, rfl⟩ := List.head?_eq_some_iff.mp hstar
        exact ⟨true, body, rfl, rfl⟩
      · exact ⟨false, line, rfl, if_neg hstar⟩
    rw [baseName?] at h
    dsimp only at h
    rw [hbody] at h
    obtain ⟨⟨first, rest⟩, hfirst, hrest⟩ := Option.bind_eq_some_iff.mp h
    obtain ⟨rfl, hidentifier, -⟩ := leading?_eq_some hfirst
    dsimp only at hrest
    split at hrest
    · next t =>
      obtain ⟨⟨last, behind⟩, hlast, hbehind⟩ := Option.bind_eq_some_iff.mp hrest
      obtain ⟨rfl, hbase, -⟩ := leading?_eq_some hlast
      split at hbehind
      · next hend =>
        obtain rfl := Option.some.inj hbehind
        refine ⟨star, some first, behind, fun p hp => ?_, hbase, isArguments_of_isBaseEnd hend, ?_⟩
        · obtain rfl := Option.some.inj hp
          exact hidentifier
        · rw [hline, embeddedLine, packageText, List.append_assoc first]
          rfl
      · cases hbehind
    · split at hrest
      · next hend =>
        obtain rfl := Option.some.inj hrest
        exact ⟨star, none, rest, fun p hp => absurd hp (Option.not_mem_none p), hidentifier,
          isArguments_of_isBaseEnd hend, hline⟩
      · cases hrest
  · rintro ⟨star, package, arguments, hpackage, hbase, harguments, rfl⟩
    exact baseName?_embeddedLine star hpackage hbase harguments

/-- A line is read as an embedded type exactly if it is one. -/
theorem embedded?_eq_some :
    embedded? line = some l ↔ ∃ base, IsEmbedded line base ∧ l = ⟨[base], line, .embedded⟩ := by
  rw [embedded?, Option.map_eq_some_iff]
  exact exists_congr fun base => and_congr baseName?_eq_some eq_comm

/-! ## One shape at most -/

/-- The reader of a shape. -/
def readAs? : FieldShape → Text → Option FieldLine
  | .named => named?
  | .multiName => multiName?
  | .embedded => embedded?

/-- A line is read as a shape exactly if the grammar has it in that shape. -/
theorem readAs?_eq_some (hend : Text.EndsSolid line) (shape : FieldShape) :
    readAs? shape line = some l ↔ Grammar line l ∧ l.shape = shape := by
  cases shape with
  | named =>
      refine (named?_eq_some hend).trans ⟨?_, ?_⟩
      · rintro ⟨name, type, h, rfl⟩
        exact ⟨.named h, rfl⟩
      · rintro ⟨h, hshape⟩
        cases h with
        | named h => exact ⟨_, _, h, rfl⟩
        | multiName => exact nomatch hshape
        | embedded => exact nomatch hshape
  | multiName =>
      refine (multiName?_eq_some hend).trans ⟨?_, ?_⟩
      · rintro ⟨names, type, h, hmax, rfl⟩
        exact ⟨.multiName h hmax, rfl⟩
      · rintro ⟨h, hshape⟩
        cases h with
        | named => exact nomatch hshape
        | multiName h hmax => exact ⟨_, _, h, hmax, rfl⟩
        | embedded => exact nomatch hshape
  | embedded =>
      refine embedded?_eq_some.trans ⟨?_, ?_⟩
      · rintro ⟨base, h, rfl⟩
        exact ⟨.embedded h, rfl⟩
      · rintro ⟨h, hshape⟩
        cases h with
        | named => exact nomatch hshape
        | multiName => exact nomatch hshape
        | embedded h => exact ⟨_, h, rfl⟩

/-- A line that is written in a shape is read as that shape. -/
theorem exists_readAs? (hend : Text.EndsSolid line) {shape : FieldShape} :
    HasShape line shape ↔ ∃ l, readAs? shape line = some l := by
  cases shape with
  | named =>
      constructor
      · rintro ⟨name, type, h⟩
        exact ⟨_, (named?_eq_some hend).mpr ⟨name, type, h, rfl⟩⟩
      · rintro ⟨l, hl⟩
        obtain ⟨name, type, h, -⟩ := (named?_eq_some hend).mp hl
        exact ⟨name, type, h⟩
  | multiName =>
      constructor
      · rintro ⟨names, type, h⟩
        obtain ⟨found?, hlongest, hfound⟩ := multiName?_isLongest hend
        cases hlongest with
        | none hnone => exact absurd h (hnone names type)
        | some => exact ⟨_, hfound⟩
      · rintro ⟨l, hl⟩
        obtain ⟨names, type, h, -⟩ := (multiName?_eq_some hend).mp hl
        exact ⟨names, type, h⟩
  | embedded =>
      constructor
      · rintro ⟨base, h⟩
        exact ⟨_, embedded?_eq_some.mpr ⟨base, h, rfl⟩⟩
      · rintro ⟨l, hl⟩
        obtain ⟨base, h, -⟩ := embedded?_eq_some.mp hl
        exact ⟨base, h⟩

/-- Of a line with one name the type follows, and of one with several a comma. -/
theorem IsNamed.not_isMultiName {other : Text} (hend : Text.EndsSolid line)
    (h : IsNamed line name type) : ¬ IsMultiName line names other := by
  intro hseveral
  obtain ⟨hone, hcomma⟩ := h
  obtain ⟨first, rest, hleading⟩ := hone.leading
  obtain ⟨more, hmore, -⟩ := (isMultiName_iff hend hleading).mp hseveral
  rcases (HasNames.cons_iff hend hleading).mp hone with ⟨-, htype⟩ | ⟨_, _, -, hnames, htail⟩
  · have hrest := hend.behindName hleading
    obtain ⟨blanks, -, hblanks, hfills, rfl⟩ := (typeAfter?_eq_some hrest).mp htype
    rw [hfills.trimLeft_append hblanks] at hmore
    rw [hmore] at hcomma
    exact hcomma rfl
  · exact htail.ne_nil (List.cons.inj hnames).2.symm

/-- An embedded type is read as nothing else. -/
theorem IsEmbedded.readAs?_eq_none {base : Text} (hend : Text.EndsSolid line)
    (h : IsEmbedded line base) : named? line = none ∧ multiName? line = none := by
  have hclean : ofClean? line = some ⟨[base], line, .embedded⟩ := by
    obtain ⟨star, package, arguments, hpackage, hbase, harguments, rfl⟩ := h
    exact ofClean?_embedded star hpackage hbase harguments
  rcases (Option.orElse_eq_some _ _ _).mp hclean with hnamed | ⟨hnone, hmore⟩
  · obtain ⟨name, type, -, hl⟩ := (named?_eq_some hend).mp hnamed
    exact nomatch hl
  · refine ⟨hnone, ?_⟩
    rcases (Option.orElse_eq_some _ _ _).mp hmore with hmulti | ⟨hnone, -⟩
    · obtain ⟨names, type, -, -, hl⟩ := (multiName?_eq_some hend).mp hmulti
      exact nomatch hl
    · exact hnone

/-- No line is written in two shapes. -/
theorem HasShape.unique (hend : Text.EndsSolid line) {shape other : FieldShape}
    (h : HasShape line shape) (hother : HasShape line other) : shape = other := by
  have hnamed : HasShape line .named → ¬ HasShape line .multiName := by
    rintro ⟨name, type, hone⟩ ⟨names, other, hseveral⟩
    exact hone.not_isMultiName hend hseveral
  have hembedded {shape : FieldShape} (hshape : HasShape line shape) :
      HasShape line .embedded → shape = .embedded := by
    rintro ⟨base, hbase⟩
    obtain ⟨l, hl⟩ := (exists_readAs? hend).mp hshape
    obtain ⟨hnone, hnone'⟩ := hbase.readAs?_eq_none hend
    cases shape with
    | named => exact nomatch hnone.symm.trans hl
    | multiName => exact nomatch hnone'.symm.trans hl
    | embedded => rfl
  -- nine pairs of shapes, of which three are equal and the others exclude each other
  cases shape <;> cases other <;> first
    | rfl
    | exact absurd hother (hnamed h)
    | exact absurd h (hnamed hother)
    | exact hembedded h hother
    | exact (hembedded hother h).symm

/-- Whichever reader comes first, the line is read as the grammar has it. -/
theorem findSome?_readAs? (hend : Text.EndsSolid line) {order : List FieldShape}
    (horder : ∀ shape, shape ∈ order) :
    order.findSome? (readAs? · line) = some l ↔ Grammar line l := by
  constructor
  · intro h
    obtain ⟨shape, -, hshape⟩ := List.exists_of_findSome?_eq_some h
    exact ((readAs?_eq_some hend shape).mp hshape).1
  · intro h
    have hread : readAs? l.shape line = some l := (readAs?_eq_some hend l.shape).mpr ⟨h, rfl⟩
    cases hfirst : order.findSome? (readAs? · line) with
    | none =>
        have hnone := List.findSome?_eq_none_iff.mp hfirst l.shape (horder l.shape)
        exact nomatch hnone.symm.trans hread
    | some found =>
        obtain ⟨shape, -, hshape⟩ := List.exists_of_findSome?_eq_some hfirst
        -- the shape that is found first is the one of the line, since a line has one at most
        obtain rfl : shape = l.shape := HasShape.unique hend
          ((exists_readAs? hend).mpr ⟨found, hshape⟩) ((exists_readAs? hend).mpr ⟨l, hread⟩)
        exact hshape.symm.trans hread

/-- A line is read by the first of the three shapes that it can be read by. -/
theorem ofClean?_eq_findSome? (line : Text) :
    ofClean? line = [FieldShape.named, .multiName, .embedded].findSome? (readAs? · line) := by
  rw [ofClean?, List.findSome?, List.findSome?, List.findSome?, List.findSome?, readAs?, readAs?,
    readAs?]
  cases named? line <;> cases multiName? line <;> cases embedded? line <;> rfl

/-- A field line is read exactly as the grammar has it, it has at most one of the shapes, and it
    does not matter in which order the shapes are tried. -/
theorem classify_grammar (text : Text) :
    (∀ shape other, HasShape (Tag.strip text) shape → HasShape (Tag.strip text) other →
      shape = other) ∧
    (∀ l, classify text = some l ↔ Grammar (Tag.strip text) l) ∧
    (∀ shape, (∃ l, classify text = some l ∧ l.shape = shape) ↔
      HasShape (Tag.strip text) shape) ∧
    (classify text = none ↔ ∀ shape, ¬ HasShape (Tag.strip text) shape) ∧
    ∀ order : List FieldShape, (∀ shape, shape ∈ order) →
      order.findSome? (readAs? · (Tag.strip text)) = classify text := by
  have hend : Text.EndsSolid (Tag.strip text) := Text.endsSolid_trim _
  have hall (shape : FieldShape) : shape ∈ [FieldShape.named, .multiName, .embedded] := by
    cases shape <;> decide
  have hread (l : FieldLine) : classify text = some l ↔ Grammar (Tag.strip text) l := by
    rw [classify, ofClean?_eq_findSome?]
    exact findSome?_readAs? hend hall
  have hshape (shape : FieldShape) : (∃ l, classify text = some l ∧ l.shape = shape) ↔
      HasShape (Tag.strip text) shape := by
    rw [exists_readAs? hend]
    exact exists_congr fun l => (and_congr_left' (hread l)).trans (readAs?_eq_some hend shape).symm
  refine ⟨fun _ _ => HasShape.unique hend, hread, hshape, ⟨?_, ?_⟩, ?_⟩
  · intro hnone shape h
    obtain ⟨l, hl, -⟩ := (hshape shape).mpr h
    exact nomatch hnone.symm.trans hl
  · intro h
    cases hclass : classify text with
    | none => rfl
    | some l => exact absurd ((hshape l.shape).mp ⟨l, hclass, rfl⟩) (h l.shape)
  · intro order horder
    refine Option.ext fun l => ?_
    exact (findSome?_readAs? hend horder).trans (hread l).symm

/-- Of three names none is taken for a type, although a comma and a name could be one. -/
theorem classify_grammar_threeNames :
    HasShape (Tag.strip "a, b , c d `json:\"a\"`".toList) .multiName ∧
      ¬ HasShape (Tag.strip "a, b , c d `json:\"a\"`".toList) .embedded ∧
      [FieldShape.embedded, .multiName, .named].findSome?
          (readAs? · (Tag.strip "a, b , c d `json:\"a\"`".toList)) =
        some ⟨["a".toList, "b".toList, "c".toList], "d".toList, .multiName⟩ := by
  obtain ⟨hunique, -, hshape, -, horder⟩ := classify_grammar "a, b , c d `json:\"a\"`".toList
  have hclass : classify "a, b , c d `json:\"a\"`".toList =
      some ⟨["a".toList, "b".toList, "c".toList], "d".toList, .multiName⟩ := by decide +kernel
  have hseveral := (hshape .multiName).mp ⟨_, hclass, rfl⟩
  refine ⟨hseveral, fun hembedded => ?_, ?_⟩
  · exact nomatch hunique _ _ hembedded hseveral
  · exact (horder _ fun shape => by cases shape <;> decide).trans hclass

end FieldLine

end GoLayout
