/-
Text as a list of characters, with the byte offsets of its UTF-8 form.  A slice
at byte offsets fails when they are out of order, out of range or inside a
character, which is where a checked string slice would stop the program.
-/
import Mathlib.Data.List.DropRight

namespace Text

/-- The number of bytes of the UTF-8 form. -/
def byteLength : List Char → Nat
  | [] => 0
  | c :: text => c.utf8Size + byteLength text

@[simp] theorem byteLength_nil : byteLength [] = 0 := rfl

@[simp] theorem byteLength_cons (c : Char) (text : List Char) :
    byteLength (c :: text) = c.utf8Size + byteLength text := rfl

@[simp] theorem byteLength_append (first second : List Char) :
    byteLength (first ++ second) = byteLength first + byteLength second := by
  induction first with
  | nil => simp
  | cons c first ih =>
      rw [List.cons_append, byteLength_cons, byteLength_cons, ih, Nat.add_assoc]

theorem byteLength_eq_zero {text : List Char} :
    byteLength text = 0 ↔ text = [] := by
  constructor
  · intro hzero
    cases text with
    | nil => rfl
    | cons c text =>
        have hpos := c.utf8Size_pos
        rw [byteLength_cons] at hzero
        omega
  · rintro rfl
    rfl

theorem length_le_byteLength (text : List Char) : text.length ≤ byteLength text := by
  induction text with
  | nil => exact Nat.le_refl 0
  | cons c text ih =>
      have hpos := c.utf8Size_pos
      rw [List.length_cons, byteLength_cons]
      omega

theorem byteLength_of_ascii {text : List Char}
    (htext : ∀ c ∈ text, c.toNat < 128) : byteLength text = text.length := by
  induction text with
  | nil => rfl
  | cons c text ih =>
      have hsmall : c.val ≤ 127 :=
        UInt32.le_iff_toNat_le.mpr
          (Nat.le_of_lt_succ (htext c List.mem_cons_self))
      have hone : c.utf8Size = 1 := Char.utf8Size_eq_one_iff.mpr hsmall
      have htail := ih fun d hd => htext d (List.mem_cons_of_mem c hd)
      rw [byteLength_cons, hone, htail, List.length_cons, Nat.add_comm]

/-- The bytes of a text. -/
def encode (text : List Char) : List UInt8 := text.flatMap String.utf8EncodeChar

/-- The text of a byte string, when it is well-formed UTF-8. -/
def decode (bytes : List UInt8) : Option (List Char) :=
  bytes.toByteArray.utf8Decode?.map Array.toList

theorem encode_append (first second : List Char) :
    encode (first ++ second) = encode first ++ encode second := by
  simp [encode]

theorem length_encode (text : List Char) :
    (encode text).length = byteLength text := by
  induction text with
  | nil => rfl
  | cons c text ih =>
      have hcons : encode (c :: text) =
          String.utf8EncodeChar c ++ encode text := rfl
      rw [hcons, List.length_append, ih, String.length_utf8EncodeChar,
        byteLength_cons]

theorem decode_encode (text : List Char) : decode (encode text) = some text := by
  have hbytes : (encode text).toByteArray = text.utf8Encode := rfl
  rw [decode, hbytes, List.utf8Decode?_utf8Encode]
  rfl

theorem encode_of_decode {bytes : List UInt8} {text : List Char}
    (hdecode : decode bytes = some text) : encode text = bytes := by
  rw [decode, Option.map_eq_some_iff] at hdecode
  obtain ⟨chars, hchars, rfl⟩ := hdecode
  have hsome : bytes.toByteArray.utf8Decode?.isSome := by
    rw [hchars]
    rfl
  have hback := ByteArray.utf8Encode_get_utf8Decode? (h := hsome)
  simp only [hchars, Option.get_some] at hback
  have hlist := congrArg (fun array : ByteArray => array.data.toList) hback
  rw [List.toList_data_toByteArray] at hlist
  rw [← hlist]
  exact (List.toList_data_toByteArray (l := encode chars.toList)).symm

/-- An ASCII byte occurs only as its own character. -/
theorem mem_utf8EncodeChar_of_ascii {a c : Char} (ha : a.toNat < 128)
    (hmem : UInt8.ofNat a.toNat ∈ String.utf8EncodeChar c) : c = a := by
  have hbyte : ∀ n, UInt8.ofNat a.toNat = UInt8.ofNat n → n % 256 = a.toNat := by
    intro n hn
    have hnat := congrArg UInt8.toNat hn
    rw [UInt8.toNat_ofNat', UInt8.toNat_ofNat'] at hnat
    omega
  rw [String.utf8EncodeChar] at hmem
  split at hmem
  · have hsame := hbyte _ (List.mem_singleton.mp hmem)
    apply Char.toNat_inj.mp
    change c.val.toNat = a.toNat
    omega
  · split at hmem
    · simp only [List.mem_cons, List.not_mem_nil, or_false] at hmem
      rcases hmem with hmem | hmem <;> have := hbyte _ hmem <;> omega
    · split at hmem
      · simp only [List.mem_cons, List.not_mem_nil, or_false] at hmem
        rcases hmem with hmem | hmem | hmem <;> have := hbyte _ hmem <;> omega
      · simp only [List.mem_cons, List.not_mem_nil, or_false] at hmem
        rcases hmem with hmem | hmem | hmem | hmem <;> have := hbyte _ hmem <;>
          omega

theorem mem_encode_of_ascii {a : Char} (ha : a.toNat < 128) {text : List Char} :
    UInt8.ofNat a.toNat ∈ encode text ↔ a ∈ text := by
  rw [encode, List.mem_flatMap]
  constructor
  · rintro ⟨c, hc, hmem⟩
    rw [← mem_utf8EncodeChar_of_ascii ha hmem]
    exact hc
  · intro hmem
    refine ⟨a, hmem, ?_⟩
    have hsmall : a.val.toNat ≤ 127 := Nat.le_of_lt_succ ha
    rw [String.utf8EncodeChar]
    simp only [hsmall, if_true]
    exact List.mem_singleton.mpr rfl

/-- The rest of a text from a byte offset on. -/
def dropBytes : List Char → Nat → Option (List Char)
  | text, 0 => some text
  | [], _ + 1 => none
  | c :: text, offset =>
      if offset < c.utf8Size then none else dropBytes text (offset - c.utf8Size)

/-- The start of a text up to a byte offset. -/
def takeBytes : List Char → Nat → Option (List Char)
  | _, 0 => some []
  | [], _ + 1 => none
  | c :: text, offset =>
      if offset < c.utf8Size then none
      else (takeBytes text (offset - c.utf8Size)).map (c :: ·)

/-- The text between two byte offsets. -/
def slice (text : List Char) (start stop : Nat) : Option (List Char) :=
  if stop < start then none
  else (dropBytes text start).bind fun rest => takeBytes rest (stop - start)

theorem dropBytes_append (first second : List Char) :
    dropBytes (first ++ second) (byteLength first) = some second := by
  induction first with
  | nil => cases second <;> rfl
  | cons c first ih =>
      obtain ⟨size, hsize⟩ := Nat.exists_eq_succ_of_ne_zero c.utf8Size_pos.ne'
      rw [List.cons_append, byteLength_cons]
      have hpos : c.utf8Size + byteLength first = (size + byteLength first) + 1 := by
        omega
      have hge : ¬c.utf8Size + byteLength first < c.utf8Size := by omega
      have hsub : c.utf8Size + byteLength first - c.utf8Size =
          byteLength first := by omega
      rw [hpos, dropBytes, ← hpos, if_neg hge, hsub, ih]
      simp

theorem takeBytes_append (first second : List Char) :
    takeBytes (first ++ second) (byteLength first) = some first := by
  induction first with
  | nil => cases second <;> rfl
  | cons c first ih =>
      obtain ⟨size, hsize⟩ := Nat.exists_eq_succ_of_ne_zero c.utf8Size_pos.ne'
      rw [List.cons_append, byteLength_cons]
      have hpos : c.utf8Size + byteLength first = (size + byteLength first) + 1 := by
        omega
      have hge : ¬c.utf8Size + byteLength first < c.utf8Size := by omega
      have hsub : c.utf8Size + byteLength first - c.utf8Size =
          byteLength first := by omega
      rw [hpos, takeBytes, ← hpos, if_neg hge, hsub, ih]
      · rfl
      · simp

theorem slice_append (before text after : List Char) :
    slice (before ++ text ++ after) (byteLength before)
      (byteLength before + byteLength text) = some text := by
  have hle : ¬byteLength before + byteLength text < byteLength before := by omega
  have hsub : byteLength before + byteLength text - byteLength before =
      byteLength text := by omega
  rw [slice, if_neg hle, List.append_assoc, dropBytes_append, Option.bind_some,
    hsub, takeBytes_append]

theorem slice_of_lt {text : List Char} {start stop : Nat} (hlt : stop < start) :
    slice text start stop = none := by
  rw [slice, if_pos hlt]

/-- The byte offset of the first occurrence of a character. -/
def find (wanted : Char) : List Char → Option Nat
  | [] => none
  | c :: text =>
      if c = wanted then some 0 else (find wanted text).map (· + c.utf8Size)

theorem find_eq_none {wanted : Char} {text : List Char} :
    find wanted text = none ↔ wanted ∉ text := by
  induction text with
  | nil => simp [find]
  | cons c text ih =>
      by_cases hc : c = wanted
      · simp [find, hc]
      · simp [find, hc, ih, Ne.symm hc]

theorem find_append {wanted : Char} {before : List Char}
    (hbefore : wanted ∉ before) (after : List Char) :
    find wanted (before ++ wanted :: after) = some (byteLength before) := by
  induction before with
  | nil => simp [find]
  | cons c before ih =>
      rw [List.mem_cons, not_or] at hbefore
      simp [find, Ne.symm hbefore.1, ih hbefore.2, Nat.add_comm]

/-- A text with an occurrence splits at the first one. -/
theorem exists_split_of_mem {wanted : Char} {text : List Char}
    (hmem : wanted ∈ text) :
    ∃ before after, text = before ++ wanted :: after ∧ wanted ∉ before := by
  obtain ⟨before, after, htext, hbefore⟩ := List.eq_append_cons_of_mem hmem
  exact ⟨before, after, htext, hbefore⟩

/-- Two ways to split a list at the first occurrence of an element agree. -/
theorem first_split_unique {A : Type} {wanted : A} {before after left right : List A}
    (hbefore : wanted ∉ before) (hleft : wanted ∉ left)
    (heq : before ++ wanted :: after = left ++ wanted :: right) :
    before = left ∧ after = right := by
  induction before generalizing left with
  | nil =>
      cases left with
      | nil => exact ⟨rfl, (List.cons.inj heq).2⟩
      | cons c left =>
          exact absurd (List.cons.inj heq).1
            (fun h => hleft (h ▸ List.mem_cons_self))
  | cons c before ih =>
      cases left with
      | nil =>
          exact absurd (List.cons.inj heq).1.symm
            (fun h => hbefore (h ▸ List.mem_cons_self))
      | cons d left =>
          obtain ⟨hhead, htail⟩ := List.cons.inj heq
          have hrest := ih (fun h => hbefore (List.mem_cons_of_mem _ h))
            (fun h => hleft (List.mem_cons_of_mem _ h)) htail
          exact ⟨by rw [hhead, hrest.1], hrest.2⟩

section Trim

variable (blank : Char → Bool)

/-- Drop the blank characters at both ends. -/
def trim (text : List Char) : List Char :=
  (text.dropWhile blank).rdropWhile blank

/-- Neither end is blank. -/
def Trimmed (text : List Char) : Prop :=
  ∀ hne : text ≠ [],
    blank (text.head hne) = false ∧ blank (text.getLast hne) = false

def Blank (text : List Char) : Prop := ∀ c ∈ text, blank c = true

variable {blank}

theorem trim_of_trimmed {before text after : List Char} (hbefore : Blank blank before)
    (htext : Trimmed blank text) (hafter : Blank blank after) :
    trim blank (before ++ text ++ after) = text := by
  have hleft : (before ++ text ++ after).dropWhile blank =
      (text ++ after).dropWhile blank := by
    rw [List.append_assoc, List.dropWhile_append_of_pos hbefore]
  by_cases hne : text = []
  · subst hne
    rw [trim, hleft, List.nil_append, List.dropWhile_eq_nil_iff.mpr hafter,
      List.rdropWhile_nil]
  · have hends := htext hne
    have hhead : (text ++ after).dropWhile blank = text ++ after := by
      rw [List.dropWhile_eq_self_iff]
      intro hlen
      have hfirst : (text ++ after)[0] = text.head hne := by
        rw [List.head_eq_getElem, List.getElem_append_left]
      rw [hfirst, hends.1]
      exact Bool.false_ne_true
    have hlast : text.rdropWhile blank = text := by
      rw [List.rdropWhile_eq_self_iff]
      intro hl
      rw [hends.2]
      exact Bool.false_ne_true
    have htail : ((text ++ after).reverse.dropWhile blank) =
        text.reverse.dropWhile blank := by
      rw [List.reverse_append, List.dropWhile_append_of_pos]
      intro c hc
      exact hafter c (List.mem_reverse.mp hc)
    rw [trim, hleft, hhead, List.rdropWhile, htail, ← List.rdropWhile, hlast]

theorem trim_eq_self {text : List Char} (htext : Trimmed blank text) :
    trim blank text = text := by
  have hnone : Blank blank [] := fun c hc => absurd hc List.not_mem_nil
  have hself := trim_of_trimmed hnone htext hnone
  simpa using hself

theorem trimmed_trim (text : List Char) : Trimmed blank (trim blank text) := by
  intro hne
  have hstarts : trim blank text <+: text.dropWhile blank :=
    List.rdropWhile_prefix blank _
  have hdrop : text.dropWhile blank ≠ [] := by
    intro hnil
    rw [hnil] at hstarts
    exact hne (List.prefix_nil.mp hstarts)
  constructor
  · rw [hstarts.head hne]
    have hhead := List.head_dropWhile_not blank hdrop
    exact hhead
  · exact Bool.eq_false_iff.mpr (List.rdropWhile_last_not blank _ hne)

/-- A text is its trimmed form between two blank ends. -/
theorem exists_trim (blank : Char → Bool) (text : List Char) :
    ∃ before after, Blank blank before ∧ Blank blank after ∧
      text = before ++ trim blank text ++ after := by
  refine ⟨text.takeWhile blank, (text.dropWhile blank).rtakeWhile blank, ?_, ?_, ?_⟩
  · intro c hc
    exact List.mem_takeWhile_imp hc
  · intro c hc
    exact List.mem_rtakeWhile_imp hc
  · rw [List.append_assoc, trim, List.rdropWhile_append_rtakeWhile,
      List.takeWhile_append_dropWhile]

theorem trim_blank_append {before : List Char} (hbefore : Blank blank before)
    (text : List Char) : trim blank (before ++ text) = trim blank text := by
  rw [trim, trim, List.dropWhile_append_of_pos hbefore]

theorem trim_append_blank {after : List Char} (hafter : Blank blank after)
    (text : List Char) : trim blank (text ++ after) = trim blank text := by
  obtain ⟨left, right, hleft, hright, htext⟩ := exists_trim blank text
  have hrest : Blank blank (right ++ after) := by
    intro c hc
    exact (List.mem_append.mp hc).elim (hright c) (hafter c)
  have hall : text ++ after = left ++ trim blank text ++ (right ++ after) := by
    rw [← List.append_assoc, ← htext]
  rw [hall, trim_of_trimmed hleft (trimmed_trim text) hrest]

end Trim

/-- A text that starts and ends with two given parts either keeps them apart or
has them overlap. -/
theorem prefix_suffix_cases {α : Type*} {first last text : List α}
    (hfirst : first <+: text) (hlast : last <:+ text) :
    (∃ middle, text = first ++ middle ++ last) ∨
      ∃ before shared after, shared ≠ [] ∧ first = before ++ shared ∧
        last = shared ++ after ∧ text = before ++ shared ++ after := by
  obtain ⟨rest, rfl⟩ := hfirst
  obtain ⟨front, hfront⟩ := hlast
  rcases List.append_eq_append_iff.mp hfront with ⟨shared, hshared, hrest⟩ |
    ⟨middle, hmiddle, hrest⟩
  · by_cases hnil : shared = []
    · left
      subst hnil
      refine ⟨[], ?_⟩
      simp only [List.nil_append] at hrest
      rw [List.append_nil, hrest]
    · right
      exact ⟨front, shared, rest, hnil, hshared, hrest, by rw [hshared]⟩
  · left
    exact ⟨middle, by rw [hrest, List.append_assoc]⟩

end Text
