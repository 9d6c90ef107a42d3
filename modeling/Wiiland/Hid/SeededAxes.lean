/-
What a decoder caches after it was seeded from the kernel.  A queried axis holds the
kernel's value, and an infrared point is real or absent as a whole.
-/
import Wiiland.Hid.Seeding

namespace Wiiland

namespace Hid

/-- The cached value of an axis, by the field of its code. -/
def Decoder.cachedValue (decoder : Decoder) (code : Nat) : Option Int :=
  ((axisFields decoder.interface).lookup code).map decoder.cache.read

/-- The two codes of each infrared point. -/
def irPoints : List (Nat × Nat) :=
  [(absHat0x, absHat0y), (absHat1x, absHat1y), (absHat2x, absHat2y),
    (absHat3x, absHat3y)]

theorem lookup_map {A : Type*} (change : Nat → A → Int) (code : Nat)
    (list : List (Nat × A)) :
    (list.map fun entry => (entry.1, change entry.1 entry.2)).lookup code =
      (list.lookup code).map (change code) := by
  induction list with
  | nil => rfl
  | cons entry list ih =>
      rw [List.map_cons, List.lookup_cons, List.lookup_cons]
      by_cases hcode : code = entry.1
      · simp [hcode]
      · have hbeq : (code == entry.1) = false := beq_false_of_ne hcode
        simp only [hbeq]
        exact ih

theorem lookup_of_mem {A : Type*} {list : List (Nat × A)}
    (hdistinct : (list.map Prod.fst).Nodup) {code : Nat} {value : A}
    (hmem : (code, value) ∈ list) : list.lookup code = some value := by
  induction list with
  | nil => exact absurd hmem List.not_mem_nil
  | cons entry list ih =>
      obtain ⟨hnot, hrest⟩ := List.nodup_cons.mp hdistinct
      rw [List.lookup_cons]
      rcases List.mem_cons.mp hmem with rfl | hmem
      · simp
      · have hcode : code ≠ entry.1 := by
          rintro rfl
          exact hnot (List.mem_map.mpr ⟨_, hmem, rfl⟩)
        have hbeq : (code == entry.1) = false := beq_false_of_ne hcode
        simp only [hbeq]
        exact ih hrest hmem

/-- Storing entries of distinct codes leaves each listed axis with its value. -/
theorem cachedValue_updateAll {decoder : Decoder} {entries : List (Nat × Int)}
    (hdistinct : (entries.map Prod.fst).Nodup) {code : Nat} {value : Int}
    (hlisted : code ∈ absCodes decoder.interface) (hmem : (code, value) ∈ entries) :
    (decoder.updateAll entries).cachedValue code = some value := by
  have hcached : ∀ decoder : Decoder,
      decoder.cached.axes.lookup code = decoder.cachedValue code := by
    intro decoder
    rw [Decoder.cached_fields]
    exact lookup_map (fun _ field => decoder.cache.read field) code _
  have hreverse : entries.reverse.lookup code = some value :=
    lookup_of_mem (by rwa [List.map_reverse, List.nodup_reverse])
      (List.mem_reverse.mpr hmem)
  have hfound : (decoder.cached.axes.lookup code).isSome := by
    rw [← decoder.cached_codes] at hlisted
    obtain ⟨axis, haxis, rfl⟩ := List.mem_map.mp hlisted
    have hnodup : (decoder.cached.axes.map Prod.fst).Nodup := by
      rw [Decoder.cached_codes]
      exact absCodes_nodup _
    rw [lookup_of_mem hnodup haxis]
    rfl
  obtain ⟨old, hold⟩ := Option.isSome_iff_exists.mp hfound
  rw [← hcached, Decoder.cached_updateAll, recoveredAxes,
    lookup_map (fun code old => (entries.reverse.lookup code).getD old), hold, hreverse]
  rfl

theorem axisEntries_sublist (history : History) :
    List.Sublist ((axisEntries history).map Prod.fst) (history.map Prod.fst) := by
  induction history with
  | nil => exact List.Sublist.slnil
  | cons entry history ih =>
      rcases entry with ⟨code, errno | value⟩
      · exact List.Sublist.cons code ih
      · exact List.Sublist.cons_cons code ih

/-- A point as its answers stand for it: both values, or both placeholders. -/
def PointSeeded (history : History) (entries : List (Nat × Int)) (pair : Nat × Nat) :
    Prop :=
  (∃ x y, (pair.1, .ok x) ∈ history ∧ (pair.2, .ok y) ∈ history ∧
    (pair.1, x) ∈ entries ∧ (pair.2, y) ∈ entries) ∨
  ((pair.1, .error (-einval)) ∈ history ∨ (pair.2, .error (-einval)) ∈ history) ∧
    (pair.1, 1023) ∈ entries ∧ (pair.2, 1023) ∈ entries

theorem PointSeeded.mono {history more : History} {entries kept : List (Nat × Int)}
    {pair : Nat × Nat} (hseeded : PointSeeded history entries pair)
    (hhistory : history ⊆ more) (hentries : entries ⊆ kept) :
    PointSeeded more kept pair := by
  rcases hseeded with ⟨x, y, hx, hy, hxEntry, hyEntry⟩ | ⟨habsent, hxEntry, hyEntry⟩
  · exact Or.inl ⟨x, y, hhistory hx, hhistory hy, hentries hxEntry, hentries hyEntry⟩
  · exact Or.inr ⟨habsent.imp (@hhistory _) (@hhistory _), hentries hxEntry,
      hentries hyEntry⟩

theorem fatal_eq_none {errno : Int} (hfine : fatal (.error errno) = none) :
    errno = -einval := by
  by_contra hother
  rw [fatal, if_pos hother] at hfine
  exact absurd hfine (Option.some_ne_none errno)

theorem fatal_eq_some {answer : Except Int Int} {errno : Int}
    (hfatal : fatal answer = some errno) : answer = .error errno ∧ errno ≠ -einval := by
  cases answer with
  | ok value => exact absurd hfatal.symm (Option.some_ne_none errno)
  | error other =>
      by_cases hother : other ≠ -einval
      · rw [fatal, if_pos hother] at hfatal
        obtain rfl := Option.some.inj hfatal
        exact ⟨rfl, hother⟩
      · rw [fatal, if_neg hother] at hfatal
        exact absurd hfatal.symm (Option.some_ne_none errno)

theorem pointEntries_seeded (pairs : List (Nat × Nat)) (history : History)
    (hcodes : history.map Prod.fst = pairs.flatMap fun pair => [pair.1, pair.2])
    (hfine : ∀ entry ∈ history, fatal entry.2 = none) :
    (pointEntries history).map Prod.fst = history.map Prod.fst ∧
      ∀ pair ∈ pairs, PointSeeded history (pointEntries history) pair := by
  induction pairs generalizing history with
  | nil =>
      obtain rfl := List.map_eq_nil_iff.mp hcodes
      exact ⟨rfl, by simp⟩
  | cons pair pairs ih =>
      obtain ⟨xCode, yCode⟩ := pair
      rcases history with _ | ⟨⟨code, x⟩, _ | ⟨⟨code', y⟩, history⟩⟩
      · simp at hcodes
      · simp at hcodes
      · simp only [List.map_cons, List.flatMap_cons, List.cons_append, List.nil_append,
          List.cons.injEq] at hcodes
        obtain ⟨rfl, rfl, hcodes⟩ := hcodes
        obtain ⟨hx, hfine⟩ := List.forall_mem_cons.mp hfine
        obtain ⟨hy, hfine⟩ := List.forall_mem_cons.mp hfine
        obtain ⟨hkeys, hpoints⟩ := ih history hcodes hfine
        have hpointed : ∀ first second, pointEntries ((code, x) :: (code', y) :: history) =
              (code, first) :: (code', second) :: pointEntries history →
            PointSeeded ((code, x) :: (code', y) :: history)
              ((code, first) :: (code', second) :: pointEntries history) (code, code') →
            (pointEntries ((code, x) :: (code', y) :: history)).map Prod.fst =
                ((code, x) :: (code', y) :: history).map Prod.fst ∧
              ∀ pair ∈ (code, code') :: pairs,
                PointSeeded ((code, x) :: (code', y) :: history)
                  (pointEntries ((code, x) :: (code', y) :: history)) pair := by
          intro first second hentries hpoint
          rw [hentries]
          refine ⟨by simp [hkeys], List.forall_mem_cons.mpr ⟨hpoint, ?_⟩⟩
          intro pair hpair
          exact (hpoints pair hpair).mono
            (List.subset_cons_of_subset _ (List.subset_cons_self _ _))
            (List.subset_cons_of_subset _ (List.subset_cons_self _ _))
        cases x with
        | error errno =>
            rw [fatal_eq_none hx] at hpointed ⊢
            exact hpointed 1023 1023 rfl (Or.inr ⟨Or.inl (by simp), by simp, by simp⟩)
        | ok x =>
            cases y with
            | error errno =>
                rw [fatal_eq_none hy] at hpointed ⊢
                exact hpointed 1023 1023 rfl (Or.inr ⟨Or.inr (by simp), by simp, by simp⟩)
            | ok y =>
                exact hpointed x y rfl
                  (Or.inl ⟨x, y, by simp, by simp, by simp, by simp⟩)

theorem seedEntries_distinct {kind : InterfaceKind} {history : History}
    (hcodes : history.map Prod.fst = absCodes kind)
    (hfine : ∀ entry ∈ history, fatal entry.2 = none) :
    ((seedEntries kind history).map Prod.fst).Nodup := by
  have hnodup := absCodes_nodup kind
  rw [← hcodes] at hnodup
  by_cases hkind : kind = .ir
  · subst hkind
    rw [seedEntries, if_pos rfl, (pointEntries_seeded irPoints history hcodes hfine).1]
    exact hnodup
  · rw [seedEntries, if_neg hkind]
    exact hnodup.sublist (axisEntries_sublist history)

/-- The decoder after it was seeded, or recovered, with some entries. -/
def Seeds (decoder : Decoder) (entries : List (Nat × Int)) (seeded : Decoder) : Prop :=
  (∃ keys, seeded = decoder.seedState keys entries) ∨
    ∃ keys time, seeded = decoder.recover keys entries time

theorem Seeds.cachedValue {decoder seeded : Decoder} {entries : List (Nat × Int)}
    (hseeds : Seeds decoder entries seeded) (code : Nat) :
    seeded.cachedValue code = (decoder.updateAll entries).cachedValue code := by
  rcases hseeds with ⟨keys, rfl⟩ | ⟨keys, time, rfl⟩ <;> rfl

/-- Every axis that was queried holds the kernel's value, outside infrared points of
which a coordinate was absent; those are absent as a whole. -/
def HoldsKernel (kind : InterfaceKind) (history : History) (seeded : Decoder) : Prop :=
  (kind ≠ .ir → ∀ code value, (code, .ok value) ∈ history →
    seeded.cachedValue code = some value) ∧
  (kind = .ir → ∀ pair ∈ irPoints,
    (∃ x y, (pair.1, .ok x) ∈ history ∧ (pair.2, .ok y) ∈ history ∧
      seeded.cachedValue pair.1 = some x ∧ seeded.cachedValue pair.2 = some y) ∨
    ((pair.1, .error (-einval)) ∈ history ∨ (pair.2, .error (-einval)) ∈ history) ∧
      seeded.cachedValue pair.1 = some 1023 ∧ seeded.cachedValue pair.2 = some 1023)

theorem holdsKernel_of_seeds {decoder seeded : Decoder} {history : History}
    (hcodes : history.map Prod.fst = absCodes decoder.interface)
    (hfine : ∀ entry ∈ history, fatal entry.2 = none)
    (hseeds : Seeds decoder (seedEntries decoder.interface history) seeded) :
    HoldsKernel decoder.interface history seeded := by
  have hdistinct := seedEntries_distinct hcodes hfine
  have hheld : ∀ code value, code ∈ absCodes decoder.interface →
      (code, value) ∈ seedEntries decoder.interface history →
        seeded.cachedValue code = some value := by
    intro code value hcode hentry
    rw [hseeds.cachedValue]
    exact cachedValue_updateAll hdistinct hcode hentry
  have hqueried : ∀ code answer, (code, answer) ∈ history →
      code ∈ absCodes decoder.interface := by
    intro code answer hmem
    rw [← hcodes]
    exact List.mem_map.mpr ⟨_, hmem, rfl⟩
  refine ⟨fun hkind code value hmem => ?_, fun hkind pair hpair => ?_⟩
  · refine hheld code value (hqueried code _ hmem) ?_
    rw [seedEntries, if_neg hkind]
    exact List.mem_filterMap.mpr ⟨_, hmem, rfl⟩
  · have hlisted : pair.1 ∈ absCodes decoder.interface ∧
        pair.2 ∈ absCodes decoder.interface := by
      rw [hkind]
      revert pair
      decide
    have hentries : seedEntries decoder.interface history = pointEntries history :=
      if_pos hkind
    rw [hkind] at hcodes
    rw [hentries] at hheld
    rcases (pointEntries_seeded irPoints history hcodes hfine).2 pair hpair with
      ⟨x, y, hx, hy, hxEntry, hyEntry⟩ | ⟨habsent, hxEntry, hyEntry⟩
    · exact Or.inl ⟨x, y, hx, hy, hheld _ _ hlisted.1 hxEntry, hheld _ _ hlisted.2 hyEntry⟩
    · exact Or.inr ⟨habsent, hheld _ _ hlisted.1 hxEntry, hheld _ _ hlisted.2 hyEntry⟩

/-- An axis event of an interface writes the field of its own code, and no other. -/
def WritesOwnFields (kind : InterfaceKind) : Prop :=
  (axisFields kind).map Prod.fst = absCodes kind ∧
  ((axisFields kind).map Prod.snd).Nodup ∧
  ∀ (decoder : Decoder) (code : Nat) (value : Int), decoder.interface = kind →
    (code ∉ absCodes kind → decoder.updateAbs code value = decoder) ∧
    ∀ field, (code, field) ∈ axisFields kind →
      field.kind = kind ∧
      decoder.updateAbs code value =
        { decoder with cache := decoder.cache.write field value } ∧
      ∀ other, (decoder.updateAbs code value).cache.read other =
        if other = field then value else decoder.cache.read other

theorem writesOwnFields (kind : InterfaceKind) : WritesOwnFields kind := by
  refine ⟨axisFields_codes kind, axisFields_distinct kind, ?_⟩
  rintro decoder code value rfl
  refine ⟨fun hcode => Decoder.updateAbs_unlisted hcode value, fun field hfield => ?_⟩
  obtain ⟨hkind, hslot⟩ := axisFields_slot decoder.interface _ hfield
  have hwrite := decoder.updateAbs_write value _ hfield
  refine ⟨hkind, hwrite, fun other => ?_⟩
  rw [hwrite]
  exact CacheState.read_write hslot decoder.cache value other

/-- Seeding from the kernel never invents half of a point: the query fails exactly on
an error other than a missing axis, its entries are what was answered, axis events
write the fields of their own codes, and the seeded decoder holds the kernel's values
with every infrared point real or absent as a whole. -/
theorem queryAbsState_seeds (kind : InterfaceKind)
    (query : History → Nat → Except Int Int) :
    (∃ result history, queryAbsState kind query = some (result, history) ∧
      Genuine query history ∧
      ((∃ errno, result = .error errno) ↔
        ∃ code errno, (code, .error errno) ∈ history ∧ errno ≠ -einval) ∧
      ∀ state, result = .ok state →
        history.map Prod.fst = absCodes kind ∧
        state.len ≤ 9 ∧ state.entries.length = state.len ∧
        (kind ≠ .ir → state.entries = axisEntries history) ∧
        (kind = .ir → state.entries.map Prod.fst = absCodes kind ∧
          ∀ pair ∈ irPoints, PointSeeded history state.entries pair) ∧
        ∀ decoder seeded : Decoder, decoder.interface = kind →
          Seeds decoder state.entries seeded → HoldsKernel kind history seeded) ∧
    WritesOwnFields kind := by
  refine ⟨?_, writesOwnFields kind⟩
  obtain ⟨result, history, hrun, hgenuine, hends⟩ := @queryAbsState_ends query kind
  refine ⟨result, history, hrun, hgenuine, ?_, ?_⟩
  · constructor
    · rintro ⟨errno, rfl⟩
      obtain ⟨⟨code, answer⟩, hmem, hfatal⟩ := hends
      obtain ⟨rfl, hother⟩ := fatal_eq_some hfatal
      exact ⟨code, errno, hmem, hother⟩
    · rintro ⟨code, errno, hmem, hother⟩
      cases result with
      | error errno => exact ⟨errno, rfl⟩
      | ok state => exact absurd (fatal_eq_none (hends.2.1 _ hmem)) hother
  · rintro state rfl
    obtain ⟨hcodes, hfine, hroom, hlen, hentries⟩ := hends
    have hentries : state.entries = seedEntries kind history := hentries
    have hlen : state.len = (seedEntries kind history).length :=
      hlen.trans (Nat.zero_add _)
    have hlength : state.entries.length = state.len := by rw [hentries, hlen]
    refine ⟨hcodes, ?_, hlength, fun hkind => hentries.trans (if_neg hkind), ?_, ?_⟩
    · have htake : state.entries.length = min state.len state.abs.length :=
        List.length_take
      have hnine : state.abs.length = 9 := hroom
      omega
    · rintro rfl
      obtain ⟨hkeys, hpoints⟩ := pointEntries_seeded irPoints history hcodes hfine
      rw [hentries]
      exact ⟨hkeys.trans hcodes, hpoints⟩
    · rintro decoder seeded rfl hseeds
      rw [hentries] at hseeds
      exact holdsKernel_of_seeds hcodes hfine hseeds

/-- A horizontal coordinate without its vertical one. -/
def halfPoint (_ : History) (code : Nat) : Except Int Int :=
  if code = absHat0x then .ok 100 else .error (-einval)

/-- What the half point is seeded with: no point at all. -/
def halfPointState : AbsState where
  abs := (absCodes .ir).map (fun code => (code, 1023)) ++ [(0, 0)]
  len := 8

/-- A coordinate that was queried is not cached when the other one of its point is
absent. -/
theorem queriedHalf_dropped :
    ¬ ∀ (kind : InterfaceKind) (query : History → Nat → Except Int Int) state history
        (decoder : Decoder) keys,
      queryAbsState kind query = some (.ok state, history) →
      decoder.interface = kind →
      ∀ code value, (code, .ok value) ∈ history →
        (decoder.seedState keys state.entries).cachedValue code = some value := by
  intro hcached
  have hrun : queryAbsState .ir halfPoint = some (.ok halfPointState,
      (absCodes .ir).map fun code => (code, halfPoint [] code)) := rfl
  have hqueried : (absHat0x, .ok 100) ∈
      (absCodes .ir).map fun code => (code, halfPoint [] code) := List.mem_cons_self
  have hvalue := hcached .ir halfPoint _ _ (Decoder.new .ir) [] hrun rfl absHat0x 100
    hqueried
  have hplaceholder : ((Decoder.new .ir).seedState [] halfPointState.entries).cachedValue
      absHat0x = some 1023 := rfl
  rw [hplaceholder] at hvalue
  exact absurd hvalue (by decide)

end Hid

end Wiiland
