import GoLayout.Proofs.Layout.DigitLimit
import GoLayout.Proofs.Text.Lines
import GoLayout.Report.MemoryMap

/-! # The memory map tiles the struct

    A memory map counts the bytes on its own, from one field to the next.  The lines of the map of
    a declaration show the regions that its layout has stored, and these follow one another from
    the first byte to the last (`Layout.memoryMap_tiles`).  The route:

    * in a packed layout the count is at the end of the field before, so that it meets the
      stored offset behind the padding (`Layout.regionsFrom_eq`, `Layout.mappedEnd_eq`);
    * each field takes the map from the end of the field before to its own end
      (`Placement.tiles_storedRegions`), and what is left is the final padding;
    * no number of the map is larger than the total size, so that each is written, and is read
      back from its line (`Region.shownBy_line`). -/

namespace GoLayout

/-! ## Regions and their lines -/

namespace Region

/-- The first byte. -/
def start : Region → Int
  | padding start _ => start
  | field start _ _ => start
  | finalPadding start _ => start

/-- The number of bytes. -/
def bytes : Region → Int
  | padding _ size => size
  | field _ _ size => size
  | finalPadding _ size => size

/-- The first byte behind the region. -/
def stop (r : Region) : Int := r.start + r.bytes

/-- What the line says about the bytes. -/
def label : Region → Text
  | padding _ _ => "padding"
  | field _ name _ => name
  | finalPadding _ _ => "final padding"

/-- The last byte of a field that has any. -/
def last? : Region → Option Int
  | field start _ size => if 0 < size then some (start + size - 1) else none
  | _ => none

/-- The line has the first byte in brackets, with the last byte if there is one to show, then the
    label and the number of bytes. -/
def ShownBy (r : Region) (line : Text) : Prop :=
  ∃ first last size : Text,
    line = Text.concat ["[", first, last, "] ", r.label, " (", size, " bytes)"] ∧
      Decimal.readInt? first = some r.start ∧ Decimal.readInt? size = some r.bytes ∧
      match r.last? with
      | some n => ∃ digits, last = '-' :: digits ∧ Decimal.readInt? digits = some n
      | none => last = []

variable {r : Region} {total : Int}

/-- The numbers of a region that ends within a size that can be written are read back from its
    line. -/
theorem shownBy_line (htotal : Decimal.writable total = true) (hstart : 0 ≤ r.start)
    (hbytes : 0 ≤ r.bytes) (hstop : r.stop ≤ total) : r.ShownBy r.line := by
  rw [stop] at hstop
  have hreadStart := Decimal.readInt?_twoPlaces
    (Decimal.writable_of_le htotal hstart (by omega))
  have hreadBytes := Decimal.readInt?_ofInt (Decimal.writable_of_le htotal hbytes (by omega))
  cases r with
  | padding s n => exact ⟨_, [], _, rfl, hreadStart, hreadBytes, rfl⟩
  | finalPadding s n => exact ⟨_, [], _, rfl, hreadStart, hreadBytes, rfl⟩
  | field s name n =>
      rw [ShownBy, line, fieldLine, last?]
      by_cases hpos : 0 < n
      · have hreadLast : Decimal.readInt? (Decimal.twoPlaces (s + n - 1)) = some (s + n - 1) := by
          refine Decimal.readInt?_twoPlaces (Decimal.writable_of_le htotal ?_ ?_)
          · exact Int.le_sub_one_of_lt (Int.add_pos_of_nonneg_of_pos hstart hpos)
          · exact Int.le_trans (Int.sub_le_self _ (by decide)) hstop
        rw [if_pos hpos, if_pos hpos]
        refine ⟨_, '-' :: Decimal.twoPlaces (s + n - 1), _, ?_, hreadStart, hreadBytes, _, rfl,
          hreadLast⟩
        rfl
      · -- the line of a field without bytes has the numeral of zero written out
        have hzero : n = 0 := Int.le_antisymm (Int.not_lt.mp hpos) hbytes
        subst hzero
        rw [if_neg hpos, if_neg hpos]
        exact ⟨_, [], _, rfl, hreadStart, hreadBytes, rfl⟩

/-- Each line starts with a bracket. -/
theorem exists_line (r : Region) : ∃ rest, r.line = '[' :: rest := by
  cases r with
  | padding s n => exact ⟨_, rfl⟩
  | finalPadding s n => exact ⟨_, rfl⟩
  | field s name n =>
      rw [line, fieldLine]
      by_cases hpos : n > 0
      · rw [if_pos hpos]
        exact ⟨_, rfl⟩
      · rw [if_neg hpos]
        exact ⟨_, rfl⟩

/-- A line holds no line break if the label holds none. -/
theorem newline_notMem_line (h : '\n' ∉ r.label) : '\n' ∉ r.line := by
  have hplaces := Decimal.newline_notMem_twoPlaces
  have hint := Decimal.newline_notMem_ofInt
  -- the numbers of a line are digits and signs; of the rest only the name of a field might break it
  cases r with
  | padding s n => simp [line, Text.concat, hplaces, hint]
  | finalPadding s n => simp [line, Text.concat, hplaces, hint]
  | field s name n =>
      have hname : '\n' ∉ name := h
      rw [line, fieldLine]
      by_cases hpos : n > 0
      · rw [if_pos hpos]
        simp [Text.concat, hplaces, hint, hname]
      · rw [if_neg hpos]
        simp [Text.concat, hplaces, hname]

end Region

/-! ## Tilings -/

/-- Regions that follow one another from one byte to another. -/
def Tiles : Int → List Region → Int → Prop
  | start, [], stop => start = stop
  | start, r :: rs, stop => r.start = start ∧ 0 ≤ r.bytes ∧ Tiles r.stop rs stop

namespace Tiles

variable {start middle stop : Int} {rs ss : List Region}

/-- Regions that end where others start tile together. -/
theorem append (hr : Tiles start rs middle) (hs : Tiles middle ss stop) :
    Tiles start (rs ++ ss) stop := by
  induction rs generalizing start with
  | nil =>
      have heq : start = middle := hr
      rw [heq]
      exact hs
  | cons r rs ih =>
      obtain ⟨hstart, hbytes, hrest⟩ := hr
      exact ⟨hstart, hbytes, ih hrest⟩

theorem start_le_stop (h : Tiles start rs stop) : start ≤ stop := by
  induction rs generalizing start with
  | nil => exact Int.le_of_eq h
  | cons r rs ih =>
      obtain ⟨hstart, hbytes, hrest⟩ := h
      have hle := ih hrest
      rw [Region.stop] at hle
      omega

/-- Every region is within the bytes that are tiled. -/
theorem bounds (h : Tiles start rs stop) :
    ∀ r ∈ rs, start ≤ r.start ∧ 0 ≤ r.bytes ∧ r.stop ≤ stop := by
  induction rs generalizing start with
  | nil => exact fun r hr => absurd hr List.not_mem_nil
  | cons first rs ih =>
      obtain ⟨hstart, hbytes, hrest⟩ := h
      intro r hr
      rcases List.mem_cons.mp hr with rfl | hmem
      · exact ⟨Int.le_of_eq hstart.symm, hbytes, hrest.start_le_stop⟩
      · obtain ⟨hle, hnonneg, hwithin⟩ := ih hrest r hmem
        rw [Region.stop] at hle
        exact ⟨by omega, hnonneg, hwithin⟩

end Tiles

/-! ## The regions of a layout -/

namespace Placement

/-- The regions of a field and the padding in front of it, by the numbers of the layout. -/
def storedRegions (p : Placement) : List Region :=
  (if 0 < p.paddingBefore then [.padding (p.offset - p.paddingBefore) p.paddingBefore] else []) ++
    [.field p.offset p.name p.size]

variable {e : Int} {p : Placement}

/-- For a field that follows an end, the map shows the padding and the bytes that are stored. -/
theorem Follows.regions_eq (h : p.Follows e) : p.regions e = p.storedRegions := by
  have hoffset := h.offset_eq
  have hnonneg := h.padding_nonneg
  have hshown : p.shownPadding = p.paddingBefore := Int.max_eq_left hnonneg
  have hback : p.offset - p.paddingBefore = e := by omega
  rw [regions, storedRegions, hshown, hback, ← hoffset]

theorem Follows.next_eq (h : p.Follows e) : e + p.shownPadding + p.size = p.endOffset := by
  have hshown : p.shownPadding = p.paddingBefore := Int.max_eq_left h.padding_nonneg
  rw [hshown, ← h.offset_eq, endOffset]

/-- A field takes the map from the end of the field before to its own end. -/
theorem Follows.tiles (h : p.Follows e) (hsize : 0 ≤ p.size) :
    Tiles e p.storedRegions p.endOffset := by
  have hoffset := h.offset_eq
  have hnonneg := h.padding_nonneg
  have hfield : Tiles p.offset [.field p.offset p.name p.size] p.endOffset :=
    ⟨rfl, hsize, rfl⟩
  rw [storedRegions]
  by_cases hpos : 0 < p.paddingBefore
  · rw [if_pos hpos]
    refine Tiles.append ⟨?_, hnonneg, ?_⟩ hfield
    · show p.offset - p.paddingBefore = e
      omega
    · show p.offset - p.paddingBefore + p.paddingBefore = p.offset
      omega
  · rw [if_neg hpos]
    have heq : e = p.offset := by omega
    rw [heq]
    exact hfield

/-- Where the name of a field breaks no line, nothing that is shown of the field does. -/
theorem newline_notMem_label (h : '\n' ∉ p.name) : ∀ r ∈ p.storedRegions, '\n' ∉ r.label := by
  intro r hr
  rcases List.mem_append.mp hr with hpadding | hfield
  · split at hpadding
    · rw [List.mem_singleton.mp hpadding]
      show '\n' ∉ ("padding" : String).toList
      decide
    · exact absurd hpadding List.not_mem_nil
  · rw [List.mem_singleton.mp hfield]
    exact h

end Placement

namespace Layout

open Placement

/-- The regions of a struct, by the numbers of its layout. -/
def storedRegions (l : Layout) : List Region :=
  l.fields.flatMap Placement.storedRegions ++
    if 0 < l.trailingPadding then [.finalPadding l.lastEnd l.trailingPadding] else []

/-- The lines of the memory map. -/
def shownLines (l : Layout) : List Text :=
  if l.memoryMap.isEmpty then [] else Text.splitOn '\n' l.memoryMap

variable {e : Int} {ps : List Placement}

/-- Counted from the end of the field before, the regions are those of the stored numbers. -/
theorem regionsFrom_eq (h : Packed e ps) :
    regionsFrom e ps = ps.flatMap Placement.storedRegions := by
  induction ps generalizing e with
  | nil => rfl
  | cons p ps ih =>
      obtain ⟨hfollows, hrest⟩ := h
      rw [regionsFrom, hfollows.regions_eq, hfollows.next_eq, ih hrest, List.flatMap_cons]

theorem mappedEnd_eq (h : Packed e ps) :
    mappedEnd e ps = (ps.getLast?.map endOffset).getD e := by
  induction ps generalizing e with
  | nil => rfl
  | cons p ps ih =>
      obtain ⟨hfollows, hrest⟩ := h
      -- the map keeps the end of the last field as it goes, and the layout looks it up
      rw [mappedEnd, hfollows.next_eq, ih hrest, List.getLast?_cons]
      cases ps.getLast? with
      | none => rfl
      | some q => rfl

/-- Packed fields tile the bytes up to where the map ends. -/
theorem tiles_flatMap (h : Packed e ps) (hsize : ∀ p ∈ ps, 0 ≤ p.size) :
    Tiles e (ps.flatMap Placement.storedRegions) (mappedEnd e ps) := by
  induction ps generalizing e with
  | nil => exact rfl
  | cons p ps ih =>
      obtain ⟨hfollows, hrest⟩ := h
      obtain ⟨hp, hps⟩ := List.forall_mem_cons.mp hsize
      rw [List.flatMap_cons, mappedEnd, hfollows.next_eq]
      exact (hfollows.tiles hp).append (ih hrest hps)

/-- The lines are those of the regions if no label breaks one. -/
theorem shownLines_eq {l : Layout} (h : ∀ r ∈ l.regions, '\n' ∉ r.label) :
    l.shownLines = l.regions.map Region.line := by
  rw [shownLines, memoryMap]
  cases hregions : l.regions with
  | nil => rfl
  | cons r rs =>
      -- an empty map would show no lines, but every region has a line that is not empty
      have hne : (Text.joinWith ['\n'] ((r :: rs).map Region.line)).isEmpty = false := by
        obtain ⟨rest, hline⟩ := r.exists_line
        rw [List.map_cons, hline]
        cases rs <;> rfl
      have hlines : ∀ t ∈ (r :: rs).map Region.line, '\n' ∉ t := by
        intro t ht
        obtain ⟨q, hq, rfl⟩ := List.mem_map.mp ht
        rw [← hregions] at hq
        exact Region.newline_notMem_line (h q hq)
      rw [hne, if_neg Bool.false_ne_true]
      exact Text.splitOn_joinWith (List.cons_ne_nil _ _) hlines

namespace IsLeastOf

variable {w : WordSize} {d : Declaration} {l : Layout}

theorem size_nonneg (h : l.IsLeastOf w d) : ∀ p ∈ l.fields, 0 ≤ p.size := by
  intro p hp
  have hmem := List.mem_map_of_mem
    (f := fun p : Placement => (p.name, p.type, p.size, p.alignment)) hp
  rw [h.entries] at hmem
  obtain ⟨f, -, heq⟩ := List.mem_map.mp hmem
  have hsize : ((footprintOf w f.type).size : Int) = p.size := congrArg (fun x => x.2.2.1) heq
  rw [← hsize]
  exact Int.natCast_nonneg _

/-- Behind all fields the map is where the last one ends. -/
theorem mappedEnd_eq (h : l.IsLeastOf w d) : mappedEnd 0 l.fields = l.lastEnd := by
  rw [Layout.mappedEnd_eq h.packed, lastEnd]
  cases l.fields.getLast? with
  | none => rfl
  | some p => rfl

/-- The map shows the regions that the layout has stored. -/
theorem regions_eq (h : l.IsLeastOf w d) : l.regions = l.storedRegions := by
  have htrailing : l.lastEnd < l.totalSize ↔ 0 < l.trailingPadding := by
    rw [trailingPadding]
    omega
  rw [regions, storedRegions, regionsFrom_eq h.packed, h.mappedEnd_eq, if_congr htrailing rfl rfl]
  rfl

/-- The regions tile the struct, its padding at the end included. -/
theorem tiles_storedRegions (h : l.IsLeastOf w d) : Tiles 0 l.storedRegions l.totalSize := by
  have hfields := tiles_flatMap h.packed h.size_nonneg
  have hle : l.lastEnd ≤ l.totalSize := h.totalSize.1.2
  have hend : l.lastEnd + l.trailingPadding = l.totalSize := by
    rw [trailingPadding]
    omega
  rw [h.mappedEnd_eq] at hfields
  refine hfields.append ?_
  by_cases hpos : 0 < l.trailingPadding
  · rw [if_pos hpos]
    exact ⟨rfl, Int.le_of_lt hpos, hend⟩
  · rw [if_neg hpos]
    show l.lastEnd = l.totalSize
    omega

/-- Without fields there is nothing to show, and each field is shown. -/
theorem storedRegions_eq_nil_iff (h : l.IsLeastOf w d) :
    l.storedRegions = [] ↔ l.fields = [] := by
  constructor
  · intro hnil
    cases hfields : l.fields with
    | nil => rfl
    | cons p ps =>
        have hmem : Region.field p.offset p.name p.size ∈ l.storedRegions := by
          rw [storedRegions, hfields]
          simp [Placement.storedRegions]
        rw [hnil] at hmem
        exact absurd hmem List.not_mem_nil
  · intro hnil
    have hlast : l.lastEnd = 0 := by
      rw [lastEnd, hnil]
      rfl
    -- zero is a multiple of the alignment behind the last field, and the least one
    have hle : l.totalSize ≤ 0 := h.totalSize.2 ⟨Int.dvd_zero _, Int.le_of_eq hlast⟩
    have htrailing : ¬ 0 < l.trailingPadding := by
      rw [trailingPadding]
      omega
    rw [storedRegions, hnil, if_neg htrailing]
    rfl

end IsLeastOf

/-- The lines of the memory map of a declaration show the regions of its layout, one line each, and
    these tile the struct from its first byte to its last. -/
theorem memoryMap_tiles {w : WordSize} {d : Declaration} {l : Layout} (h : d.layout w = .ok l)
    (hnames : ∀ p ∈ l.fields, '\n' ∉ p.name) :
    l.shownLines = l.storedRegions.map Region.line ∧
      (∀ r ∈ l.storedRegions, r.ShownBy r.line) ∧
      Tiles 0 l.storedRegions l.totalSize ∧ (l.shownLines = [] ↔ l.fields = []) := by
  have hleast : l.IsLeastOf w d := by
    rw [Declaration.eq_packed_of_layout h]
    exact d.packed_isLeastOf w
  have htiles := hleast.tiles_storedRegions
  have hlabels : ∀ r ∈ l.storedRegions, '\n' ∉ r.label := by
    intro r hr
    rcases List.mem_append.mp hr with hfield | hfinal
    · obtain ⟨p, hp, hmem⟩ := List.mem_flatMap.mp hfield
      exact newline_notMem_label (hnames p hp) r hmem
    · split at hfinal
      · rw [List.mem_singleton.mp hfinal]
        show '\n' ∉ ("final padding" : String).toList
        decide
      · exact absurd hfinal List.not_mem_nil
  have hlines : l.shownLines = l.storedRegions.map Region.line := by
    rw [← hleast.regions_eq] at hlabels ⊢
    exact shownLines_eq hlabels
  refine ⟨hlines, ?_, htiles, ?_⟩
  · intro r hr
    obtain ⟨hstart, hbytes, hstop⟩ := htiles.bounds r hr
    exact Region.shownBy_line (Declaration.writable_of_layout h) hstart hbytes hstop
  · rw [hlines, List.map_eq_nil_iff]
    exact hleast.storedRegions_eq_nil_iff

/-- A gap, a field without bytes that only aligns, and padding at the end. -/
theorem memoryMap_tiles_mixed : ∃ l, Declaration.mixed.layout .eight = .ok l ∧
    l.storedRegions =
      [.field 0 "flag" 1, .padding 1 7, .field 8 "grid" 48, .field 56 "_" 0, .field 56 "_" 8,
        .field 64 "name" 16, .field 80 "last" 2, .finalPadding 82 6] ∧
    l.shownLines = l.storedRegions.map Region.line ∧
      (∀ r ∈ l.storedRegions, r.ShownBy r.line) ∧ Tiles 0 l.storedRegions 88 := by
  have hlayout : Declaration.mixed.layout .eight = .ok (Declaration.mixed.packed .eight) :=
    Declaration.layout_eq_ok (by decide +kernel)
  have hnames : ∀ p ∈ (Declaration.mixed.packed .eight).fields, '\n' ∉ p.name := by
    decide +kernel
  obtain ⟨hlines, hshown, htiles, -⟩ := memoryMap_tiles hlayout hnames
  have htotal : (Declaration.mixed.packed .eight).totalSize = 88 := by decide +kernel
  have hregions : (Declaration.mixed.packed .eight).storedRegions =
      [.field 0 "flag" 1, .padding 1 7, .field 8 "grid" 48, .field 56 "_" 0, .field 56 "_" 8,
        .field 64 "name" 16, .field 80 "last" 2, .finalPadding 82 6] := by decide +kernel
  rw [htotal] at htiles
  exact ⟨_, hlayout, hregions, hlines, hshown, htiles⟩

end Layout

end GoLayout
