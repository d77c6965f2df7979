import Mathlib.Data.List.Forall2
import Mathlib.Order.Bounds.Defs
import ClauseRouter.Proofs.Message.Form

/-!
# Headers in any spelling

The name of a header can be sent and asked for in letters of either case, and with underscores for
hyphens.  A request has one key for all the spellings of a name, and keeps one value under it.

* `Request.SameByte` — the bytes that make no difference in the name of a header.
* `Request.headerKey_eq_iff` — two names have one key exactly if they differ in such bytes only.
* `Request.headerKey_headerKey` — a key is its own key.
* `Request.spellings` — the spellings of a name under which something was sent.
* `Request.get?_headersOf_eq_some` — what is kept under the key of a name.
* `Request.header_create` — a header is there exactly if something was sent under a spelling of its name,
  and of several spellings the one that is greatest in the byte order counts.
-/

namespace ClauseRouter.Request

/-! ## Keys -/

/-- The byte of a key that stands for a byte of a name. -/
def keyByte (b : UInt8) : UInt8 :=
  if Bytes.lowerByte b == Byte.underscore then Byte.hyphen else Bytes.lowerByte b

/-- A key is made byte by byte. -/
lemma headerKey_eq_map (name : Bytes) : headerKey name = name.map keyByte := by
  rw [headerKey, Bytes.lower, List.map_map]
  rfl

/-- A byte of a key stands for itself. -/
lemma keyByte_keyByte (b : UInt8) : keyByte (keyByte b) = keyByte b :=
  Bytes.forall_byte (p := fun b => keyByte (keyByte b) = keyByte b) (by decide +kernel) b

/-- **A key is its own key.** -/
lemma headerKey_headerKey (name : Bytes) : headerKey (headerKey name) = headerKey name := by
  rw [headerKey_eq_map, headerKey_eq_map, List.map_map]
  exact List.map_congr_left fun b _ => keyByte_keyByte b

/-- **Bytes that make no difference** in the name of a header: the two cases of a letter, and the hyphen
and the underscore. -/
inductive SameByte : UInt8 → UInt8 → Prop
  | itself (b : UInt8) : SameByte b b
  | capital {b : UInt8} (upper : Bytes.isUpper b = true) : SameByte b (b + 0x20)
  | small {b : UInt8} (upper : Bytes.isUpper b = true) : SameByte (b + 0x20) b
  | underscore : SameByte Byte.underscore Byte.hyphen
  | hyphen : SameByte Byte.hyphen Byte.underscore

/-- What becomes of a byte: a capital letter becomes a small one, the underscore the hyphen. -/
lemma keyByte_cases (b : UInt8) :
    (Bytes.isUpper b = true ∧ keyByte b = b + 0x20 ∧ keyByte b ≠ Byte.hyphen) ∨
    (b = Byte.underscore ∧ keyByte b = Byte.hyphen) ∨ keyByte b = b :=
  Bytes.forall_byte (p := fun b =>
    (Bytes.isUpper b = true ∧ keyByte b = b + 0x20 ∧ keyByte b ≠ Byte.hyphen) ∨
    (b = Byte.underscore ∧ keyByte b = Byte.hyphen) ∨ keyByte b = b) (by decide +kernel) b

lemma keyByte_small {b : UInt8} (upper : Bytes.isUpper b = true) : keyByte (b + 0x20) = keyByte b := by
  revert upper
  exact Bytes.forall_byte (p := fun b => Bytes.isUpper b = true → keyByte (b + 0x20) = keyByte b)
    (by decide +kernel) b

lemma keyByte_eq_iff {a b : UInt8} : keyByte a = keyByte b ↔ SameByte a b := by
  constructor
  · intro same
    -- each of the two is a capital letter, or the underscore, or the byte of its key itself
    rcases keyByte_cases a with ⟨upper, keyA, notHyphen⟩ | ⟨rfl, keyA⟩ | keyA <;>
      rcases keyByte_cases b with ⟨upper', keyB, notHyphen'⟩ | ⟨rfl, keyB⟩ | keyB
    · rw [keyA, keyB] at same
      rw [(UInt8.add_left_inj _).mp same]
      exact .itself b
    · exact absurd (same.trans keyB) notHyphen
    · rw [← keyB, ← same, keyA]
      exact .capital upper
    · exact absurd (same.symm.trans keyA) notHyphen'
    · exact .itself _
    · rw [← keyB, ← same, keyA]
      exact .underscore
    · rw [← keyA, same, keyB]
      exact .small upper'
    · rw [← keyA, same, keyB]
      exact .hyphen
    · rw [← keyA, same, keyB]
      exact .itself b
  · intro same
    cases same with
    | itself => rfl
    | capital upper => exact (keyByte_small upper).symm
    | small upper => exact keyByte_small upper
    | underscore => rfl
    | hyphen => rfl

/-- **Two names have one key** exactly if they differ in such bytes only. -/
lemma headerKey_eq_iff {name other : Bytes} :
    headerKey name = headerKey other ↔ List.Forall₂ SameByte name other := by
  rw [headerKey_eq_map, headerKey_eq_map, ← List.forall₂_eq_eq_eq, List.forall₂_map_left_iff,
    List.forall₂_map_right_iff]
  simp only [keyByte_eq_iff]

/-! ## Headers -/

/-- The spellings of a name under which something was sent. -/
def spellings (headers : Dict Bytes) (name : Bytes) : Set Bytes :=
  {sent | headers.contains sent = true ∧ headerKey sent = headerKey name}

section

variable (headers : Dict Bytes) (name : Bytes)

lemma mem_spellings {sent : Bytes} :
    sent ∈ spellings headers name ↔
      ∃ value, (sent, value) ∈ headers.toList ∧ headerKey sent = headerKey name := by
  rw [spellings, Set.mem_ofPred_eq, Dict.contains, Option.isSome_iff_exists]
  simp only [Dict.get?_eq_some, exists_and_right, Dict.toList]

/-- What a fresh request keeps are the headers that were sent, each under its key. -/
lemma headers_create (method uri body : Bytes) :
    (create method uri headers body).headers = headersOf headers.toList := by
  rw [create]
  dsimp only
  split <;> rfl

/-- **What is kept under the key of a name** is the value of its greatest spelling. -/
lemma get?_headersOf_eq_some {value : Bytes}
    (kept : (headersOf headers.toList).get? (headerKey name) = some value) :
    ∃ sent, IsGreatest (spellings headers name) sent ∧ headers.get? sent = some value := by
  rw [get?_headersOf] at kept
  obtain ⟨⟨sent, _⟩, last, rfl⟩ := Option.map_eq_some_iff.mp kept
  obtain ⟨mem, same⟩ := List.mem_filter.mp (List.mem_of_getLast? last)
  rw [beq_iff_eq] at same
  refine ⟨sent, ⟨(mem_spellings headers name).mpr ⟨_, mem, same⟩, fun other spelled => ?_⟩,
    headers.get?_eq_some.mpr mem⟩
  obtain ⟨value, mem', same'⟩ := (mem_spellings headers name).mp spelled
  exact Dict.le_getLast? (headers.increasing.filter _) last (other, value)
    (List.mem_filter.mpr ⟨mem', beq_iff_eq.mpr same'⟩)

/-- Nothing is kept under the key of a name that nothing was sent under. -/
lemma get?_headersOf_eq_none :
    (headersOf headers.toList).get? (headerKey name) = none ↔ spellings headers name = ∅ := by
  rw [get?_headersOf, Option.map_eq_none_iff, List.getLast?_eq_none_iff, List.filter_eq_nil_iff,
    Set.eq_empty_iff_forall_notMem]
  simp only [mem_spellings, beq_iff_eq, not_exists, not_and, Prod.forall]

end

/-- What is kept is kept under the key of a name that was sent. -/
lemma exists_of_contains_headersOf {entries : List (Bytes × Bytes)} {key : Bytes}
    (kept : (headersOf entries).contains key = true) : ∃ entry ∈ entries, headerKey entry.1 = key := by
  rw [Dict.contains, get?_headersOf, Option.isSome_map, Option.isSome_iff_exists] at kept
  obtain ⟨entry, last⟩ := kept
  obtain ⟨mem, same⟩ := List.mem_filter.mp (List.mem_of_getLast? last)
  exact ⟨entry, mem, beq_iff_eq.mp same⟩

/-- **The headers of a fresh request.**  Names that differ in letter case only, or in hyphens and
underscores, have one key, and no others have.  Every key under which a header is kept is its own key.
There is a header of a name, however it is spelled, exactly if something was sent under a spelling of it;
its value is what was sent under the spelling that is greatest in the byte order, and empty if there is
none. -/
theorem header_create (method uri body : Bytes) (headers : Dict Bytes) (name : Bytes) :
    let request := create method uri headers body
    (∀ other, headerKey other = headerKey name ↔ List.Forall₂ SameByte other name) ∧
    (∀ key, request.headers.contains key = true → headerKey key = key) ∧
    (request.hasHeader name = true ↔ (spellings headers name).Nonempty) ∧
    (request.hasHeader name = true →
      ∃ sent, IsGreatest (spellings headers name) sent ∧
        headers.get? sent = some (request.header name)) ∧
    (request.hasHeader name = false → request.header name = []) := by
  intro request
  have kept : request.headers = headersOf headers.toList := headers_create headers method uri body
  rw [hasHeader, header, Dict.contains, Dict.getD, kept]
  refine ⟨fun _ => headerKey_eq_iff, fun key there => ?_, ?_, fun there => ?_, fun absent => ?_⟩
  · obtain ⟨entry, -, rfl⟩ := exists_of_contains_headersOf there
    exact headerKey_headerKey entry.1
  · rw [Option.isSome_iff_ne_none, ne_eq, get?_headersOf_eq_none, Set.nonempty_iff_ne_empty]
  · obtain ⟨value, found⟩ := Option.isSome_iff_exists.mp there
    rw [found]
    exact get?_headersOf_eq_some headers name found
  · rw [Option.isSome_eq_false_iff, Option.isNone_iff_eq_none] at absent
    rw [absent]
    rfl

/-- Three spellings of one name; small letters are greater than capitals and underscores. -/
theorem header_create_of_spellings :
    let sent : Dict Bytes := Dict.ofList [(ascii "content_type", ascii "text/css"),
      (ascii "CONTENT-TYPE", ascii "text/plain"), (ascii "Content_Type", ascii "text/html")]
    let request := create (ascii "GET") (ascii "/") sent []
    request.hasHeader (ascii "Content-TYPE") = true ∧
    request.header (ascii "Content-TYPE") = ascii "text/css" ∧
    request.header (ascii "accept") = [] := by
  intro sent request
  obtain ⟨-, -, there, value, -⟩ := header_create (ascii "GET") (ascii "/") [] sent (ascii "Content-TYPE")
  obtain ⟨-, -, -, -, absent⟩ := header_create (ascii "GET") (ascii "/") [] sent (ascii "accept")
  have small : ascii "content_type" ∈ spellings sent (ascii "Content-TYPE") := ⟨by decide, by decide⟩
  have found := there.mpr ⟨_, small⟩
  obtain ⟨greatest, ⟨-, above⟩, same⟩ := value found
  -- no other name that was sent is as great as the one in small letters
  have others : ∀ entry ∈ sent.toList,
      ascii "content_type" ≤ entry.1 → entry.1 = ascii "content_type" := by decide
  have spelled := others _ (sent.get?_eq_some.mp same) (above small)
  dsimp only at spelled
  rw [spelled] at same
  exact ⟨found, (Option.some.inj same).symm, absent (by decide)⟩

end ClauseRouter.Request
