/-
The incremental collector of newline-delimited frames.  However a stream is cut
into pushes, the collector yields the lines of the stream, and it refuses the
stream exactly when one of its lines is too long.
-/
import Wiiland.Ipc.Protocol
import Wiiland.Lib.Lines

namespace Wiiland

namespace Ipc

theorem stripCr_length (line : List UInt8) :
    (stripCr line).length =
      line.length - if line.getLast? = some carriageReturn then 1 else 0 := by
  unfold stripCr
  split
  · exact List.length_dropLast
  · rfl

/-- A line that is short enough to be a frame. -/
def Fits (line : List UInt8) : Prop := (stripCr line).length ≤ maxFrameBytes

instance (line : List UInt8) : Decidable (Fits line) :=
  inferInstanceAs (Decidable ((stripCr line).length ≤ maxFrameBytes))

theorem Fits.length_le {line : List UInt8} (hfits : Fits line) :
    line.length ≤ maxFrameBytes + 1 := by
  rw [Fits, stripCr_length] at hfits
  split at hfits <;> omega

theorem fits_nil : Fits [] := Nat.zero_le _

/-- The start of a line that fits also fits. -/
theorem Fits.of_append {start more : List UInt8} (hfits : Fits (start ++ more)) :
    Fits start := by
  cases more with
  | nil => rwa [List.append_nil] at hfits
  | cons byte more =>
      have hlength := hfits.length_le
      rw [List.length_append, List.length_cons] at hlength
      rw [Fits, stripCr_length] at hfits ⊢
      rw [List.length_append, List.length_cons] at hfits
      cases more with
      | nil =>
          split at hfits
          · split <;> omega
          · split <;> simp only [List.length_nil] at hfits <;> omega
      | cons => split <;> simp only [List.length_cons] at hlength <;> omega

/-- Every completed line of the stream and its rest are short enough. -/
def Acceptable (stream : List UInt8) : Prop :=
  (∀ line ∈ (Lines.cut newline stream).1, Fits line) ∧
    Fits (Lines.cut newline stream).2

theorem acceptable_line {line : List UInt8} (hline : newline ∉ line)
    (stream : List UInt8) :
    Acceptable (line ++ newline :: stream) ↔ Fits line ∧ Acceptable stream := by
  rw [Acceptable, Lines.cut_line hline, List.forall_mem_cons, and_assoc]
  rfl

theorem acceptable_rest {rest : List UInt8} (hrest : newline ∉ rest) :
    Acceptable rest ↔ Fits rest := by
  rw [Acceptable, Lines.cut_of_not_mem hrest]
  simp

structure FrameBuffer where
  bytes : List UInt8 := []
deriving DecidableEq, Repr

namespace FrameBuffer

/-- The length of a payload, less the carriage return that ends its part or, for
an empty part, the buffer. -/
def payloadLen (bytes part : List UInt8) : Nat :=
  bytes.length + part.length -
    if part.getLast? = some carriageReturn ∨
        part = [] ∧ bytes.getLast? = some carriageReturn then 1
    else 0

/-- The length of an unfinished payload, less a carriage return that ends it. -/
def restLen (bytes input : List UInt8) : Nat :=
  bytes.length + input.length -
    if input.getLast? = some carriageReturn then 1 else 0

/-- The loop over the input with the frames so far. -/
def pushLoop (frames : List (List UInt8)) (bytes input : List UInt8) :
    Except ProtocolError (List (List UInt8)) × List UInt8 :=
  if input = [] then (.ok frames, bytes)
  else
    match _hfind : input.findIdx? (· == newline) with
    | some end_ =>
        let part := input.take end_
        let payload := payloadLen bytes part
        if maxFrameBytes < payload then (.error (.frameTooLarge payload), bytes)
        else
          pushLoop (frames ++ [stripCr (bytes ++ part)]) [] (input.drop (end_ + 1))
    | none =>
        let payload := restLen bytes input
        if maxFrameBytes < payload then (.error (.frameTooLarge payload), bytes)
        else (.ok frames, bytes ++ input)
termination_by input.length
decreasing_by
  have hlt := (List.findIdx?_eq_some_iff_getElem.mp _hfind).choose
  rw [List.length_drop]
  omega

theorem payloadLen_eq (bytes part : List UInt8) :
    payloadLen bytes part = (stripCr (bytes ++ part)).length := by
  rw [payloadLen, stripCr_length, List.length_append, List.getLast?_append]
  cases hlast : part.getLast? with
  | none =>
      rw [List.getLast?_eq_none_iff] at hlast
      by_cases hcr : bytes.getLast? = some carriageReturn <;> simp [hlast, hcr]
  | some byte =>
      have hne : part ≠ [] := by
        rintro rfl
        cases hlast
      simp [hne]

/-- What a collector keeps between pushes: no delimiter, and never too much. -/
structure Retained (bytes : List UInt8) : Prop where
  unfinished : newline ∉ bytes
  fits : Fits bytes

theorem split_at_find {input : List UInt8} {end_ : Nat}
    (hfind : input.findIdx? (· == newline) = some end_) :
    newline ∉ input.take end_ ∧
      input = input.take end_ ++ newline :: input.drop (end_ + 1) := by
  obtain ⟨hlt, hhit, hbefore⟩ := List.findIdx?_eq_some_iff_getElem.mp hfind
  constructor
  · intro hmem
    obtain ⟨i, hi, hget⟩ := List.mem_take_iff_getElem.mp hmem
    have hmiss := hbefore i (by omega)
    rw [hget] at hmiss
    simp at hmiss
  · rw [beq_iff_eq] at hhit
    rw [← hhit, List.getElem_cons_drop, List.take_append_drop]

theorem unfinished_append {bytes input : List UInt8} (hretained : Retained bytes)
    (hfind : input.findIdx? (· == newline) = none) : newline ∉ bytes ++ input := by
  rw [List.mem_append, not_or]
  refine ⟨hretained.unfinished, fun hmem => ?_⟩
  have hmiss := List.findIdx?_eq_none_iff.mp hfind newline hmem
  simp at hmiss

theorem restLen_eq (bytes : List UInt8) {input : List UInt8} (hinput : input ≠ []) :
    restLen bytes input = (stripCr (bytes ++ input)).length := by
  rw [restLen, stripCr_length, List.length_append, List.getLast?_append,
    List.getLast?_eq_some_getLast hinput]
  rfl

/-- The loop yields the lines of what it holds and is given, or refuses it. -/
theorem pushLoop_spec (frames : List (List UInt8)) {bytes : List UInt8}
    (hretained : Retained bytes) (input : List UInt8) :
    (Acceptable (bytes ++ input) ∧
      pushLoop frames bytes input =
        (.ok (frames ++ (Lines.cut newline (bytes ++ input)).1.map stripCr),
          (Lines.cut newline (bytes ++ input)).2)) ∨
    (¬Acceptable (bytes ++ input) ∧
      ∃ size kept, maxFrameBytes < size ∧ Retained kept ∧
        pushLoop frames bytes input = (.error (.frameTooLarge size), kept)) := by
  fun_induction pushLoop frames bytes input with
  | case1 frames bytes =>
      rw [List.append_nil]
      refine Or.inl ⟨(acceptable_rest hretained.unfinished).mpr hretained.fits, ?_⟩
      rw [Lines.cut_of_not_mem hretained.unfinished, List.map_nil, List.append_nil]
  | case2 frames bytes input hinput end_ hfind part payload hbig =>
      obtain ⟨hpart, hsplit⟩ := split_at_find hfind
      have hline : newline ∉ bytes ++ part := by
        rw [List.mem_append, not_or]
        exact ⟨hretained.unfinished, hpart⟩
      refine Or.inr ⟨?_, payload, bytes, hbig, hretained, rfl⟩
      rw [hsplit, ← List.append_assoc, acceptable_line hline]
      intro hboth
      have hfits := hboth.1
      rw [Fits, ← payloadLen_eq] at hfits
      omega
  | case3 frames bytes input hinput end_ hfind part payload hsmall ih =>
      obtain ⟨hpart, hsplit⟩ := split_at_find hfind
      have hline : newline ∉ bytes ++ part := by
        rw [List.mem_append, not_or]
        exact ⟨hretained.unfinished, hpart⟩
      have hfits : Fits (bytes ++ part) := by
        rw [Fits, ← payloadLen_eq]
        omega
      have hstream : bytes ++ input =
          (bytes ++ part) ++ newline :: input.drop (end_ + 1) := by
        rw [List.append_assoc, ← hsplit]
      rw [hstream, acceptable_line hline, Lines.cut_line hline]
      rcases ih ⟨List.not_mem_nil, fits_nil⟩ with ⟨haccept, hloop⟩ | ⟨hrefuse, hloop⟩
      · rw [List.nil_append] at haccept hloop
        refine Or.inl ⟨⟨hfits, haccept⟩, ?_⟩
        rw [hloop, List.map_cons, List.append_assoc]
        rfl
      · rw [List.nil_append] at hrefuse
        exact Or.inr ⟨fun hboth => hrefuse hboth.2, hloop⟩
  | case4 frames bytes input hinput hfind payload hbig =>
      have hrest := unfinished_append hretained hfind
      refine Or.inr ⟨?_, payload, bytes, hbig, hretained, rfl⟩
      rw [acceptable_rest hrest, Fits, ← restLen_eq bytes hinput]
      omega
  | case5 frames bytes input hinput hfind payload hsmall =>
      have hrest := unfinished_append hretained hfind
      refine Or.inl ⟨?_, ?_⟩
      · rw [acceptable_rest hrest, Fits, ← restLen_eq bytes hinput]
        omega
      · rw [Lines.cut_of_not_mem hrest, List.map_nil, List.append_nil]

/-- Append bytes and return every complete frame payload. -/
def push (buffer : FrameBuffer) (input : List UInt8) :
    Except ProtocolError (List (List UInt8)) × FrameBuffer :=
  let (frames, bytes) := pushLoop [] buffer.bytes input
  (frames, { bytes })

theorem push_spec {buffer : FrameBuffer} (hretained : Retained buffer.bytes)
    (input : List UInt8) :
    (Acceptable (buffer.bytes ++ input) ∧
      buffer.push input =
        (.ok ((Lines.cut newline (buffer.bytes ++ input)).1.map stripCr),
          ⟨(Lines.cut newline (buffer.bytes ++ input)).2⟩)) ∨
    (¬Acceptable (buffer.bytes ++ input) ∧
      ∃ size kept, maxFrameBytes < size ∧ Retained kept ∧
        buffer.push input = (.error (.frameTooLarge size), ⟨kept⟩)) := by
  rcases pushLoop_spec [] hretained input with
    ⟨haccept, hloop⟩ | ⟨hrefuse, size, kept, hsize, hkept, hloop⟩
  · refine Or.inl ⟨haccept, ?_⟩
    rw [push, hloop, List.nil_append]
  · refine Or.inr ⟨hrefuse, size, kept, hsize, hkept, ?_⟩
    rw [push, hloop]

theorem retained_empty : Retained ({} : FrameBuffer).bytes :=
  ⟨List.not_mem_nil, fits_nil⟩

/-- A push of whole lines into an empty collector yields them all. -/
theorem push_lines {lines : List (List UInt8)}
    (hlines : ∀ line ∈ lines, newline ∉ line ∧ Fits line) :
    push {} (Lines.glue newline lines []) = (.ok (lines.map stripCr), {}) := by
  have hcut := Lines.cut_glue (fun line hline => (hlines line hline).1)
    (List.not_mem_nil (a := newline))
  rcases push_spec retained_empty (Lines.glue newline lines []) with ⟨_, hpush⟩ | ⟨hrefuse, _⟩
  · rw [hpush, List.nil_append, hcut]
  · rw [List.nil_append, Acceptable, hcut] at hrefuse
    exact absurd ⟨fun line hline => (hlines line hline).2, fits_nil⟩ hrefuse

/-- A push of a part of a line keeps it, or refuses it. -/
theorem push_part {part : List UInt8} (hpart : newline ∉ part) (hsome : part ≠ [])
    (buffer : FrameBuffer) :
    buffer.push part =
      if maxFrameBytes < restLen buffer.bytes part then
        (.error (.frameTooLarge (restLen buffer.bytes part)), buffer)
      else (.ok [], ⟨buffer.bytes ++ part⟩) := by
  have hnone : part.findIdx? (· == newline) = none :=
    List.findIdx?_eq_none_iff.mpr fun byte hbyte =>
      beq_false_of_ne (ne_of_mem_of_not_mem hbyte hpart)
  have hloop : pushLoop [] buffer.bytes part =
      if maxFrameBytes < restLen buffer.bytes part then
        (.error (.frameTooLarge (restLen buffer.bytes part)), buffer.bytes)
      else (.ok [], buffer.bytes ++ part) := by
    rw [pushLoop, if_neg hsome]
    split
    · next end_ hfind =>
        rw [hnone] at hfind
        cases hfind
    · rfl
  rw [push, hloop]
  by_cases hlong : maxFrameBytes < restLen buffer.bytes part
  · rw [if_pos hlong, if_pos hlong]
  · rw [if_neg hlong, if_neg hlong]

theorem Retained.push {buffer : FrameBuffer} (hretained : Retained buffer.bytes)
    (input : List UInt8) : Retained (buffer.push input).2.bytes := by
  rcases push_spec hretained input with
    ⟨haccept, hpush⟩ | ⟨_, size, kept, _, hkept, hpush⟩
  · rw [hpush]
    exact ⟨(Lines.not_mem_cut newline _).2, haccept.2⟩
  · rw [hpush]
    exact hkept

/-- Successive pushes, whatever they return. -/
def pushAll (buffer : FrameBuffer) :
    List (List UInt8) → List (Except ProtocolError (List (List UInt8))) × FrameBuffer
  | [] => ([], buffer)
  | input :: rest =>
      ((buffer.push input).1 :: (pushAll (buffer.push input).2 rest).1,
        (pushAll (buffer.push input).2 rest).2)

theorem Retained.pushAll {buffer : FrameBuffer} (hretained : Retained buffer.bytes)
    (chunks : List (List UInt8)) : Retained (buffer.pushAll chunks).2.bytes := by
  induction chunks generalizing buffer with
  | nil => exact hretained
  | cons chunk rest ih => exact ih (hretained.push chunk)

/-- A stream is acceptable when its first piece is, and what the first piece
leaves unfinished is acceptable with the rest of the stream. -/
theorem acceptable_append (first second : List UInt8) :
    Acceptable (first ++ second) ↔
      (∀ line ∈ (Lines.cut newline first).1, Fits line) ∧
        Acceptable ((Lines.cut newline first).2 ++ second) := by
  rw [Acceptable, Lines.cut_append, List.forall_mem_append, and_assoc]
  rfl

/-- An unfinished line that is too long stays too long. -/
theorem fits_of_acceptable {rest more : List UInt8} (hrest : newline ∉ rest)
    (haccept : Acceptable (rest ++ more)) : Fits rest := by
  by_cases hmore : newline ∈ more
  · obtain ⟨part, after, rfl, hpart⟩ := List.eq_append_cons_of_mem hmore
    have hline : newline ∉ rest ++ part := by
      rw [List.mem_append, not_or]
      exact ⟨hrest, hpart⟩
    rw [← List.append_assoc, acceptable_line hline] at haccept
    exact haccept.1.of_append
  · have hwhole : newline ∉ rest ++ more := by
      rw [List.mem_append, not_or]
      exact ⟨hrest, hmore⟩
    exact ((acceptable_rest hwhole).mp haccept).of_append

theorem acceptable_of_append {first second : List UInt8}
    (haccept : Acceptable (first ++ second)) : Acceptable first := by
  obtain ⟨hlines, hrest⟩ := (acceptable_append first second).mp haccept
  exact ⟨hlines, fits_of_acceptable (Lines.not_mem_cut newline first).2 hrest⟩

def allOk (results : List (Except ProtocolError (List (List UInt8)))) : Prop :=
  ∀ result ∈ results, ∃ frames, result = .ok frames

/-- The frames of the pushes that succeed, in order. -/
def returned (results : List (Except ProtocolError (List (List UInt8)))) :
    List (List UInt8) :=
  results.flatMap fun result => result.toOption.getD []

/-- All pushes of a stream succeed exactly when the stream is acceptable, and
then they return its lines and keep its rest. -/
theorem pushAll_spec {buffer : FrameBuffer} (hretained : Retained buffer.bytes)
    (chunks : List (List UInt8)) :
    (allOk (buffer.pushAll chunks).1 ↔
      Acceptable (buffer.bytes ++ chunks.flatten)) ∧
    (allOk (buffer.pushAll chunks).1 →
      returned (buffer.pushAll chunks).1 =
          (Lines.cut newline (buffer.bytes ++ chunks.flatten)).1.map stripCr ∧
        (buffer.pushAll chunks).2.bytes =
          (Lines.cut newline (buffer.bytes ++ chunks.flatten)).2) := by
  induction chunks generalizing buffer with
  | nil =>
      rw [List.flatten_nil, List.append_nil, acceptable_rest hretained.unfinished,
        Lines.cut_of_not_mem hretained.unfinished]
      refine ⟨⟨fun _ => hretained.fits, fun _ result hresult => ?_⟩, fun _ => ⟨rfl, rfl⟩⟩
      exact absurd hresult List.not_mem_nil
  | cons chunk rest ih =>
      have htail := ih (hretained.push chunk)
      rw [List.flatten_cons, ← List.append_assoc, pushAll]
      rcases push_spec hretained chunk with
        ⟨haccept, hpush⟩ | ⟨hrefuse, size, kept, _, _, hpush⟩
      · rw [hpush] at htail
        rw [hpush, acceptable_append (buffer.bytes ++ chunk) rest.flatten,
          Lines.cut_append (buffer.bytes ++ chunk) rest.flatten, allOk,
          List.forall_mem_cons]
        refine ⟨⟨fun hok => ⟨haccept.1, htail.1.mp hok.2⟩, fun hboth =>
          ⟨⟨_, rfl⟩, htail.1.mpr hboth.2⟩⟩, fun hok => ?_⟩
        obtain ⟨hframes, hkept⟩ := htail.2 hok.2
        refine ⟨?_, hkept⟩
        rw [returned, List.flatMap_cons, ← returned, hframes, List.map_append]
        rfl
      · have hfails : ¬allOk ((buffer.push chunk).1 ::
            (pushAll (buffer.push chunk).2 rest).1) := by
          intro hok
          obtain ⟨frames, hframes⟩ := hok _ List.mem_cons_self
          rw [hpush] at hframes
          cases hframes
        exact ⟨⟨fun hok => absurd hok hfails,
          fun haccept => absurd (acceptable_of_append haccept) hrefuse⟩,
          fun hok => absurd hok hfails⟩

/-- Some push refused its input as too large. -/
def rejects (results : List (Except ProtocolError (List (List UInt8)))) : Prop :=
  ∃ error, .error error ∈ results ∧ error.code = .frameTooLarge

/-- A push returns frames within the limit or refuses its input as too large. -/
theorem pushAll_results {buffer : FrameBuffer} (hretained : Retained buffer.bytes)
    (chunks : List (List UInt8)) :
    ∀ result ∈ (buffer.pushAll chunks).1,
      (∃ frames, result = .ok frames ∧
        ∀ frame ∈ frames, frame.length ≤ maxFrameBytes) ∨
      ∃ error, result = .error error ∧ error.code = .frameTooLarge := by
  induction chunks generalizing buffer with
  | nil => exact fun result hresult => absurd hresult List.not_mem_nil
  | cons chunk rest ih =>
      rw [pushAll, List.forall_mem_cons]
      refine ⟨?_, ih (hretained.push chunk)⟩
      rcases push_spec hretained chunk with
        ⟨haccept, hpush⟩ | ⟨_, size, _, _, _, hpush⟩
      · refine Or.inl ⟨_, by rw [hpush], fun frame hframe => ?_⟩
        obtain ⟨line, hline, rfl⟩ := List.mem_map.mp hframe
        exact haccept.1 line hline
      · exact Or.inr ⟨.frameTooLarge size, by rw [hpush], rfl⟩

theorem rejects_iff {buffer : FrameBuffer} (hretained : Retained buffer.bytes)
    (chunks : List (List UInt8)) :
    rejects (buffer.pushAll chunks).1 ↔
      ¬Acceptable (buffer.bytes ++ chunks.flatten) := by
  rw [← (pushAll_spec hretained chunks).1]
  constructor
  · rintro ⟨error, herror, _⟩ hok
    obtain ⟨frames, hframes⟩ := hok _ herror
    cases hframes
  · intro hfails
    rw [allOk, not_forall] at hfails
    obtain ⟨result, hresult⟩ := hfails
    rw [Classical.not_imp] at hresult
    rcases pushAll_results hretained chunks result hresult.1 with
      ⟨frames, hframes, _⟩ | ⟨error, rfl, hcode⟩
    · exact absurd ⟨frames, hframes⟩ hresult.2
    · exact ⟨error, hresult.1, hcode⟩

/-- The frames, the rest and the refusal are those of the stream, however it was
cut into pushes. -/
theorem pushAll_chunking (chunks : List (List UInt8)) :
    (allOk (pushAll {} chunks).1 →
      returned (pushAll {} chunks).1 =
        (Lines.cut newline chunks.flatten).1.map stripCr ∧
      (pushAll {} chunks).2.bytes = (Lines.cut newline chunks.flatten).2) ∧
    (∀ frame ∈ returned (pushAll {} chunks).1, frame.length ≤ maxFrameBytes) ∧
    (∀ earlier, earlier <+: chunks →
      (pushAll {} earlier).2.bytes.length ≤ maxFrameBytes + 1) ∧
    (rejects (pushAll {} chunks).1 ↔
      ∃ line ∈ (Lines.cut newline chunks.flatten).1 ++
        [(Lines.cut newline chunks.flatten).2], maxFrameBytes < (stripCr line).length) ∧
    ∀ other, other.flatten = chunks.flatten →
      (rejects (pushAll {} other).1 ↔ rejects (pushAll {} chunks).1) := by
  refine ⟨(pushAll_spec retained_empty chunks).2, ?_, ?_, ?_, ?_⟩
  · intro frame hframe
    obtain ⟨result, hresult, hmem⟩ := List.mem_flatMap.mp hframe
    rcases pushAll_results retained_empty chunks result hresult with
      ⟨frames, rfl, hframes⟩ | ⟨error, rfl, _⟩
    · exact hframes frame hmem
    · exact absurd hmem List.not_mem_nil
  · intro earlier _
    exact (retained_empty.pushAll earlier).fits.length_le
  · rw [rejects_iff retained_empty]
    change ¬Acceptable chunks.flatten ↔ _
    constructor
    · intro hrefuse
      by_contra hnone
      have hfits : ∀ line ∈ (Lines.cut newline chunks.flatten).1 ++
          [(Lines.cut newline chunks.flatten).2], Fits line := fun line hline =>
        Nat.le_of_not_lt fun hlong => hnone ⟨line, hline, hlong⟩
      rw [List.forall_mem_append, List.forall_mem_singleton] at hfits
      exact hrefuse hfits
    · rintro ⟨line, hline, hlong⟩ ⟨hlines, hrest⟩
      rcases List.mem_append.mp hline with hmem | hmem
      · exact Nat.not_le_of_lt hlong (hlines line hmem)
      · rw [List.mem_singleton.mp hmem] at hlong
        exact Nat.not_le_of_lt hlong hrest
  · intro other hother
    rw [rejects_iff retained_empty, rejects_iff retained_empty, hother]

end FrameBuffer

end Ipc

end Wiiland
