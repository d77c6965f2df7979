import ClauseRouter.Message.Cookie
import ClauseRouter.Proofs.Bytes
import ClauseRouter.Proofs.Dict

/-!
# What a client sends back

A client is told its session by a cookie and sends the cookie back among others, in whatever order and
with whatever blanks.  These lemmas say when the session is read from what comes back, and what is read
under any name from any header.

* `Cookie.IsName` — what can be the name of a cookie.
* `Cookie.Names` — a piece of a header, between two semicolons, is a pair of a name.
* `Cookie.FirstPair` — a header whose first pair of a name has a given value.
* `Cookie.value_of_firstPair` — that value is what is read from the header.
* `Cookie.firstPair_session` — the text that is sent to a client is such a header itself.
* `Cookie.WritesHeader` — the ways to write a list of pairs as a header.
* `Cookie.writesHeader_iff` — every header is written for the pairs that are read from it, and no others.
* `Cookie.value_written` — what is read under a name is the value of its first pair, whatever pairs of
  other names there are.
-/

namespace ClauseRouter.Cookie

open ClauseRouter.Bytes (Blank Tight)

/-- What can be the name of a cookie: there is no separator in it, and no blank in front. -/
structure IsName (name : Bytes) : Prop where
  noEquals : Byte.equals ∉ name
  noSemicolon : Byte.semicolon ∉ name
  first : ∀ b ∈ name.head?, Bytes.isBlank b = false

/-- What can be read back as a value: there is no semicolon in it, and no blank at the end. -/
structure IsValue (value : Bytes) : Prop where
  noSemicolon : Byte.semicolon ∉ value
  last : ∀ b ∈ value.getLast?, Bytes.isBlank b = false

/-- A piece of a header is a pair of a name: perhaps after blanks, the name and an equals sign. -/
def Names (name piece : Bytes) : Prop :=
  ∃ blanks value, Blank blanks ∧ piece = blanks ++ (name ++ Byte.equals :: value)

/-- **The first pair of a name in a header has a given value.**  There may be blanks around the pair,
and any pieces before and after it, of which those before are not pairs of that name. -/
def FirstPair (header name value : Bytes) : Prop :=
  ∃ before left right after, Blank left ∧ Blank right ∧
    header = Bytes.join Byte.semicolon
      (before ++ (left ++ (name ++ Byte.equals :: value) ++ right) :: after) ∧
    (∀ piece ∈ before ++ after, Byte.semicolon ∉ piece) ∧ ∀ piece ∈ before, ¬ Names name piece

variable {name value header left right : Bytes}

lemma not_mem_of_blank {b : UInt8} {blanks : Bytes} (blank : Blank blanks)
    (visible : Bytes.isBlank b = false) : b ∉ blanks := fun mem => by
  rw [blank b mem] at visible
  cases visible

lemma visible_equals : Bytes.isBlank Byte.equals = false := by decide

/-- A pair is tight between its name and its value. -/
lemma tight_pair (isName : IsName name) (isValue : IsValue value) :
    Tight (name ++ Byte.equals :: value) where
  first := by
    cases name with
    | nil => simp [visible_equals]
    | cons b name => simpa using isName.first
  last := by
    rw [List.getLast?_append, List.getLast?_cons, Option.some_or]
    cases ends : value.getLast? with
    | none => simp [visible_equals]
    | some b => simpa using isValue.last b ends

/-- The piece of a pair, with blanks around it, holds no semicolon. -/
lemma semicolon_not_mem_pair (isName : IsName name) (isValue : IsValue value) (blankLeft : Blank left)
    (blankRight : Blank right) :
    Byte.semicolon ∉ left ++ (name ++ Byte.equals :: value) ++ right := by
  have visible : Bytes.isBlank Byte.semicolon = false := by decide
  have apart : Byte.semicolon ≠ Byte.equals := by decide
  simp [not_mem_of_blank blankLeft visible, not_mem_of_blank blankRight visible,
    isName.noSemicolon, isValue.noSemicolon, apart]

/-- **A pair is read from its piece,** without the blanks around it. -/
lemma cut?_pair (isName : IsName name) (isValue : IsValue value) (blankLeft : Blank left)
    (blankRight : Blank right) :
    Bytes.cut? Byte.equals (Bytes.trim (left ++ (name ++ Byte.equals :: value) ++ right))
      = some (name, value) := by
  rw [Bytes.trim_of_tight blankLeft blankRight (tight_pair isName isValue)]
  exact Bytes.cut?_eq_some.mpr ⟨rfl, isName.noEquals⟩

/-! ## One name -/

/-- What is read from a piece that is not a pair of a name is not a pair of that name. -/
lemma names_of_cut? {piece : Bytes}
    (cut : Bytes.cut? Byte.equals (Bytes.trim piece) = some (name, value)) : Names name piece := by
  obtain ⟨left, right, blank, -, around⟩ := Bytes.exists_trim piece
  obtain ⟨split, -⟩ := Bytes.cut?_eq_some.mp cut
  refine ⟨left, value ++ right, blank, ?_⟩
  rw [around, split]
  simp

lemma lookup_pairs_eq_none {pieces : List Bytes} (others : ∀ piece ∈ pieces, ¬ Names name piece) :
    (pieces.filterMap fun piece => Bytes.cut? Byte.equals (Bytes.trim piece)).lookup name = none := by
  refine lookup_eq_none ?_
  rintro ⟨other, value⟩ mem rfl
  obtain ⟨piece, among, cut⟩ := List.mem_filterMap.mp mem
  exact others piece among (names_of_cut? cut)

/-- **What is read under a name** is the value of the first pair of that name. -/
lemma value_of_firstPair (isName : IsName name) (isValue : IsValue value)
    (first : FirstPair header name value) : Cookie.value header name = value := by
  obtain ⟨before, left, right, after, blankLeft, blankRight, rfl, free, others⟩ := first
  have pieces : ∀ piece ∈ before ++ (left ++ (name ++ Byte.equals :: value) ++ right) :: after,
      Byte.semicolon ∉ piece := by
    intro piece mem
    rw [List.mem_append, List.mem_cons] at mem
    rcases mem with mem | rfl | mem
    · exact free piece (List.mem_append_left _ mem)
    · exact semicolon_not_mem_pair isName isValue blankLeft blankRight
    · exact free piece (List.mem_append_right _ mem)
  rw [Cookie.value, pairs, Bytes.split_join (by simp) pieces, List.filterMap_append,
    List.filterMap_cons, cut?_pair isName isValue blankLeft blankRight, List.lookup_append,
    lookup_pairs_eq_none others]
  simp

/-- **What is sent to a client** begins with the pair of its session. -/
lemma firstPair_session (name id : Bytes) : FirstPair (session name id) name id := by
  have attributes : ascii "; Path=/; HttpOnly"
      = Byte.semicolon :: (ascii " Path=/" ++ Byte.semicolon :: ascii " HttpOnly") := by decide
  refine ⟨[], [], [], [ascii " Path=/", ascii " HttpOnly"], by simp [Blank], by simp [Blank], ?_,
    by decide, by simp⟩
  simp [session, attributes, Bytes.join, List.intercalate_cons_cons]

example : Cookie.value (ascii "a=1;\t sid=4F ;sid=5") (ascii "sid") = ascii "4F" := by decide

/-! ## All pairs -/

/-- **The ways to write pairs** as the pieces of a header.  Each pair is a piece of its own, perhaps with
blanks around it, and pieces without an equals sign may stand anywhere. -/
inductive WritesPieces : List (Bytes × Bytes) → List Bytes → Prop
  | nil : WritesPieces [] []
  | pair {name value left right : Bytes} {list : List (Bytes × Bytes)} {pieces : List Bytes}
      (isName : IsName name) (isValue : IsValue value) (blankLeft : Blank left)
      (blankRight : Blank right) (rest : WritesPieces list pieces) :
      WritesPieces ((name, value) :: list)
        ((left ++ (name ++ Byte.equals :: value) ++ right) :: pieces)
  | stray {piece : Bytes} {list : List (Bytes × Bytes)} {pieces : List Bytes}
      (noEquals : Byte.equals ∉ piece) (noSemicolon : Byte.semicolon ∉ piece)
      (rest : WritesPieces list pieces) : WritesPieces list (piece :: pieces)

/-- The ways to write a header: its pieces, with semicolons between them. -/
def WritesHeader (list : List (Bytes × Bytes)) (header : Bytes) : Prop :=
  ∃ pieces, WritesPieces list pieces ∧ header = Bytes.join Byte.semicolon pieces

/-- Nothing is read from a piece exactly if there is no equals sign in it. -/
lemma cut?_trim_eq_none {piece : Bytes} :
    Bytes.cut? Byte.equals (Bytes.trim piece) = none ↔ Byte.equals ∉ piece := by
  obtain ⟨left, right, blankLeft, blankRight, around⟩ := Bytes.exists_trim piece
  have noLeft := not_mem_of_blank blankLeft visible_equals
  have noRight := not_mem_of_blank blankRight visible_equals
  rw [Bytes.cut?_eq_none]
  conv_rhs => rw [around]
  simp [noLeft, noRight]

variable {list : List (Bytes × Bytes)} {pieces : List Bytes}

/-- Pairs are read from the pieces that are written for them. -/
lemma WritesPieces.read (written : WritesPieces list pieces) :
    (∀ piece ∈ pieces, Byte.semicolon ∉ piece) ∧
    (pieces.filterMap fun piece => Bytes.cut? Byte.equals (Bytes.trim piece)) = list := by
  induction written with
  | nil => simp
  | pair isName isValue blankLeft blankRight _ ih =>
      rw [List.forall_mem_cons, List.filterMap_cons, cut?_pair isName isValue blankLeft blankRight,
        ih.2]
      exact ⟨⟨semicolon_not_mem_pair isName isValue blankLeft blankRight, ih.1⟩, rfl⟩
  | stray noEquals noSemicolon _ ih =>
      rw [List.forall_mem_cons, List.filterMap_cons, cut?_trim_eq_none.mpr noEquals, ih.2]
      exact ⟨⟨noSemicolon, ih.1⟩, rfl⟩

/-- What is read from a piece is a pair that can be written so. -/
lemma exists_of_cut? {piece : Bytes} (noSemicolon : Byte.semicolon ∉ piece)
    (cut : Bytes.cut? Byte.equals (Bytes.trim piece) = some (name, value)) :
    ∃ left right, Blank left ∧ Blank right ∧ IsName name ∧ IsValue value ∧
      piece = left ++ (name ++ Byte.equals :: value) ++ right := by
  obtain ⟨left, right, blankLeft, blankRight, around⟩ := Bytes.exists_trim piece
  obtain ⟨split, noEquals⟩ := Bytes.cut?_eq_some.mp cut
  have tight := Bytes.tight_trim piece
  rw [split] at around tight
  rw [around] at noSemicolon
  simp only [List.mem_append, List.mem_cons, not_or] at noSemicolon
  obtain ⟨⟨-, noName, -, noValue⟩, -⟩ := noSemicolon
  refine ⟨left, right, blankLeft, blankRight, ⟨noEquals, noName, fun b first => ?_⟩,
    ⟨noValue, fun b last => ?_⟩, around⟩
  · refine tight.first b ?_
    rw [List.head?_append, Option.mem_def.mp first]
    rfl
  · refine tight.last b ?_
    rw [List.getLast?_append, List.getLast?_cons, Option.mem_def.mp last]
    rfl

/-- Whatever the pieces are, they are written for what is read from them. -/
lemma writesPieces_of_free (free : ∀ piece ∈ pieces, Byte.semicolon ∉ piece) :
    WritesPieces (pieces.filterMap fun piece => Bytes.cut? Byte.equals (Bytes.trim piece)) pieces := by
  induction pieces with
  | nil => exact .nil
  | cons piece pieces ih =>
      obtain ⟨noSemicolon, others⟩ := List.forall_mem_cons.mp free
      rw [List.filterMap_cons]
      cases cut : Bytes.cut? Byte.equals (Bytes.trim piece) with
      | none => exact .stray (cut?_trim_eq_none.mp cut) noSemicolon (ih others)
      | some pair =>
          obtain ⟨left, right, blankLeft, blankRight, isName, isValue, rfl⟩ :=
            exists_of_cut? noSemicolon cut
          exact .pair isName isValue blankLeft blankRight (ih others)

/-- **Every header is written for the pairs that are read from it,** and for no others. -/
lemma writesHeader_iff : WritesHeader list header ↔ pairs header = list := by
  constructor
  · rintro ⟨pieces, written, rfl⟩
    obtain ⟨free, read⟩ := written.read
    by_cases none : pieces = []
    · -- where there is nothing there is still one piece, the empty one
      subst none
      rw [← read]
      decide
    · rw [pairs, Bytes.split_join none free, read]
  · rintro rfl
    exact ⟨_, writesPieces_of_free fun _ mem => Bytes.not_mem_of_mem_split mem,
      (Bytes.join_split _ _).symm⟩

/-- **What is read under a name** from a header that is written for some pairs: the value of the first
pair of this name, and nothing if there is none.  Pairs of other names make no difference, however much
of the name they share. -/
theorem value_written (written : WritesHeader list header) (name : Bytes) :
    (∀ before value after, list = before ++ (name, value) :: after →
      (∀ pair ∈ before, pair.1 ≠ name) → Cookie.value header name = value) ∧
    ((∀ pair ∈ list, pair.1 ≠ name) → Cookie.value header name = []) ∧
    (∀ list' header', WritesHeader list' header' →
      list'.filter (fun pair => pair.1 == name) = list.filter (fun pair => pair.1 == name) →
      Cookie.value header' name = Cookie.value header name) := by
  rw [Cookie.value, writesHeader_iff.mp written]
  refine ⟨?_, fun others => ?_, fun list' header' written' same => ?_⟩
  · rintro before value after rfl others
    rw [List.lookup_append, lookup_eq_none others, List.lookup_cons_self]
    rfl
  · rw [lookup_eq_none others]
    rfl
  · rw [Cookie.value, writesHeader_iff.mp written', lookup_eq_find?, lookup_eq_find?,
      ← List.head?_filter, ← List.head?_filter, same]

/-- Names that begin with the name, end with it or contain it, and a value with an equals sign. -/
theorem value_written_of_overlapping_names :
    let header := ascii "sid2=1; xsid=2;sid ; my sid=3 ;\tsid=4=F ;sid=5"
    Cookie.value header (ascii "sid") = ascii "4=F" ∧ Cookie.value header (ascii "id") = [] := by
  intro header
  have written : WritesHeader [(ascii "sid2", ascii "1"), (ascii "xsid", ascii "2"),
      (ascii "my sid", ascii "3"), (ascii "sid", ascii "4=F"), (ascii "sid", ascii "5")] header :=
    writesHeader_iff.mpr (by decide +kernel)
  obtain ⟨first, -, -⟩ := value_written written (ascii "sid")
  obtain ⟨-, none, -⟩ := value_written written (ascii "id")
  exact ⟨first [_, _, _] _ [_] rfl (by decide), none (by decide)⟩

end ClauseRouter.Cookie
