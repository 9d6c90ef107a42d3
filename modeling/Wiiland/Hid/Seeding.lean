/-
Seeding a decoder from the kernel's axes.  Each axis of the interface is queried
once; an infrared point is taken whole or not at all.
-/
import Wiiland.Hid.CacheFields

namespace Wiiland

namespace Hid

def einval : Int := 22

/-- The queries made so far with their answers; the kernel may answer each by all
of those before it. -/
abbrev History := List (Nat × Except Int Int)

/-- The entries that were found, in an array with room for nine. -/
structure AbsState where
  abs : List (Nat × Int) := List.replicate 9 (0, 0)
  len : Nat := 0

/-- Store an entry at an index; `none` past the end of the array. -/
def AbsState.store (state : AbsState) (index : Nat) (entry : Nat × Int) :
    Option AbsState :=
  if index < state.abs.length then some { state with abs := state.abs.set index entry }
  else none

/-- The entries in use: `abs[..len]`. -/
def AbsState.entries (state : AbsState) : List (Nat × Int) := state.abs.take state.len

/-- The code of a failed query, other than that of an axis that is not there. -/
def fatal : Except Int Int → Option Int
  | .ok _ => none
  | .error errno => if errno ≠ -einval then some errno else none

/-- The pairs of a list and what remains of it. -/
def asChunks : List Nat → List (Nat × Nat) × List Nat
  | x :: y :: rest => ((x, y) :: (asChunks rest).1, (asChunks rest).2)
  | rest => ([], rest)

/-- Query the points; `none` for an index past the array. -/
def queryPairs (query : History → Nat → Except Int Int) :
    List (Nat × Nat) → AbsState → History → Option (Except Int AbsState × History)
  | [], state, history => some (.ok state, history)
  | (xCode, yCode) :: pairs, state, history =>
      let x := query history xCode
      let y := query (history ++ [(xCode, x)]) yCode
      let history := history ++ [(xCode, x), (yCode, y)]
      match fatal x, fatal y, x, y with
      | some errno, _, _, _ => some (.error errno, history)
      | none, some errno, _, _ => some (.error errno, history)
      | none, none, .ok x, .ok y =>
          ((state.store state.len (xCode, x)).bind fun state =>
            state.store (state.len + 1) (yCode, y)).bind fun state =>
              queryPairs query pairs { state with len := state.len + 2 } history
      | none, none, _, _ =>
          ((state.store state.len (xCode, 1023)).bind fun state =>
            state.store (state.len + 1) (yCode, 1023)).bind fun state =>
              queryPairs query pairs { state with len := state.len + 2 } history

/-- Query the axes one by one; `none` for an index past the array. -/
def queryCodes (query : History → Nat → Except Int Int) :
    List Nat → AbsState → History → Option (Except Int AbsState × History)
  | [], state, history => some (.ok state, history)
  | code :: codes, state, history =>
      let answer := query history code
      let history := history ++ [(code, answer)]
      match answer, fatal answer with
      | .ok value, _ =>
          (state.store state.len (code, value)).bind fun state =>
            queryCodes query codes { state with len := state.len + 1 } history
      | .error _, none => queryCodes query codes state history
      | .error _, some errno => some (.error errno, history)

/-- The result with the queries that were made; `none` when a debug assertion or an
index fails. -/
def queryAbsState (kind : InterfaceKind) (query : History → Nat → Except Int Int) :
    Option (Except Int AbsState × History) :=
  if kind = .ir then
    if (asChunks (absCodes kind)).2 = [] then
      queryPairs query (asChunks (absCodes kind)).1 {} []
    else none
  else queryCodes query (absCodes kind) {} []

/-- The entries that the answers for whole points stand for. -/
def pointEntries : History → List (Nat × Int)
  | (xCode, .ok x) :: (yCode, .ok y) :: rest =>
      (xCode, x) :: (yCode, y) :: pointEntries rest
  | (xCode, _) :: (yCode, _) :: rest =>
      (xCode, 1023) :: (yCode, 1023) :: pointEntries rest
  | _ => []

/-- The entries that the answers for single axes stand for. -/
def axisEntries (history : History) : List (Nat × Int) :=
  history.filterMap fun entry => entry.2.toOption.map fun value => (entry.1, value)

/-- What seeding takes from the answers of a kind. -/
def seedEntries (kind : InterfaceKind) (history : History) : List (Nat × Int) :=
  if kind = .ir then pointEntries history else axisEntries history

theorem take_set_length {A : Type*} {list : List A} {n : Nat} (hn : n < list.length)
    (entry : A) : (list.set n entry).take (n + 1) = list.take n ++ [entry] := by
  rw [List.take_add_one, List.take_set_of_le (Nat.le_refl n), List.getElem?_set_self hn]
  rfl

theorem AbsState.store_one {state : AbsState} (hroom : state.len < state.abs.length)
    (entry : Nat × Int) :
    ∃ next, state.store state.len entry = some next ∧
      next.abs.length = state.abs.length ∧ next.len = state.len ∧
      AbsState.entries { next with len := next.len + 1 } = state.entries ++ [entry] :=
  ⟨{ state with abs := state.abs.set state.len entry }, if_pos hroom,
    List.length_set, rfl, take_set_length hroom entry⟩

theorem AbsState.store_two {state : AbsState}
    (hroom : state.len + 1 < state.abs.length) (first second : Nat × Int) :
    ∃ next, ((state.store state.len first).bind fun state =>
        state.store (state.len + 1) second) = some next ∧
      next.abs.length = state.abs.length ∧ next.len = state.len ∧
      AbsState.entries { next with len := next.len + 2 } =
        state.entries ++ [first, second] := by
  have hfirst : state.len < state.abs.length := Nat.lt_of_succ_lt hroom
  have hsecond : state.len + 1 < (state.abs.set state.len first).length := by
    rw [List.length_set]
    exact hroom
  refine ⟨{ state with
    abs := (state.abs.set state.len first).set (state.len + 1) second }, ?_, ?_, rfl, ?_⟩
  · rw [AbsState.store, if_pos hfirst, Option.bind_some, AbsState.store]
    exact if_pos hsecond
  · exact List.length_set.trans List.length_set
  · calc ((state.abs.set state.len first).set (state.len + 1) second).take
          (state.len + 1 + 1)
        = (state.abs.set state.len first).take (state.len + 1) ++ [second] :=
          take_set_length hsecond second
      _ = state.abs.take state.len ++ [first] ++ [second] := by
          rw [take_set_length hfirst]
      _ = state.abs.take state.len ++ [first, second] := by simp

/-- Every answer of a history is the query's, given the answers before it. -/
def Genuine (query : History → Nat → Except Int Int) (history : History) : Prop :=
  ∀ before entry after, history = before ++ entry :: after →
    entry.2 = query before entry.1

theorem Genuine.snoc {query : History → Nat → Except Int Int} {history : History}
    (hgenuine : Genuine query history) (code : Nat) :
    Genuine query (history ++ [(code, query history code)]) := by
  intro before entry after hsplit
  rcases List.eq_nil_or_concat after with rfl | ⟨rest, last, rfl⟩
  · obtain ⟨rfl, hentry⟩ := List.append_inj' hsplit rfl
    rw [← (List.cons.inj hentry).1]
  · rw [List.concat_eq_append, ← List.cons_append, ← List.append_assoc] at hsplit
    exact hgenuine before entry rest (List.append_inj' hsplit rfl).1

/-- How a run of queries over some codes ends: at the first fatal answer, or with the
entries of all answers stored. -/
def Ends (codes : List Nat) (entries : History → List (Nat × Int)) (start : AbsState)
    (asked : History) : Except Int AbsState → Prop
  | .error errno => ∃ entry ∈ asked, fatal entry.2 = some errno
  | .ok state =>
      asked.map Prod.fst = codes ∧ (∀ entry ∈ asked, fatal entry.2 = none) ∧
        state.abs.length = start.abs.length ∧
        state.len = start.len + (entries asked).length ∧
        state.entries = start.entries ++ entries asked

/-- Answers that are not fatal come before a run on the state that stores them. -/
theorem Ends.after {codes : List Nat} {entries : History → List (Nat × Int)}
    {start middle : AbsState} {front asked : History} {added : List (Nat × Int)}
    (hfront : ∀ entry ∈ front, fatal entry.2 = none)
    (hadded : entries (front ++ asked) = added ++ entries asked)
    (hlength : middle.abs.length = start.abs.length)
    (hlen : middle.len = start.len + added.length)
    (hentries : middle.entries = start.entries ++ added)
    {result : Except Int AbsState} (hends : Ends codes entries middle asked result) :
    Ends (front.map Prod.fst ++ codes) entries start (front ++ asked) result := by
  cases result with
  | error errno =>
      obtain ⟨entry, hentry, hfatal⟩ := hends
      exact ⟨entry, List.mem_append_right front hentry, hfatal⟩
  | ok state =>
      obtain ⟨hcodes, hfine, hroom, hcount, hstored⟩ := hends
      refine ⟨?_, ?_, hroom.trans hlength, ?_, ?_⟩
      · rw [List.map_append, hcodes]
      · exact List.forall_mem_append.mpr ⟨hfront, hfine⟩
      · rw [hcount, hlen, hadded, List.length_append, Nat.add_assoc]
      · rw [hstored, hentries, hadded, List.append_assoc]

theorem Ends.nil (entries : History → List (Nat × Int)) (hentries : entries [] = [])
    (state : AbsState) : Ends [] entries state [] (.ok state) :=
  ⟨rfl, by simp, rfl, by simp [hentries], by simp [hentries]⟩

variable {query : History → Nat → Except Int Int}

/-- Single axes: the run ends with what their answers stand for. -/
theorem queryCodes_ends (codes : List Nat) (state : AbsState) (history : History)
    (hgenuine : Genuine query history)
    (hroom : state.len + codes.length ≤ state.abs.length) :
    ∃ result asked, queryCodes query codes state history =
        some (result, history ++ asked) ∧
      Genuine query (history ++ asked) ∧ Ends codes axisEntries state asked result := by
  induction codes generalizing state history with
  | nil =>
      refine ⟨.ok state, [], ?_, ?_, Ends.nil axisEntries rfl state⟩
      · rw [queryCodes, List.append_nil]
      · rw [List.append_nil]
        exact hgenuine
  | cons code codes ih =>
      have hnext := hgenuine.snoc code
      rw [List.length_cons] at hroom
      rw [queryCodes]
      cases hanswer : query history code with
      | ok value =>
          rw [hanswer] at hnext
          obtain ⟨next, hstore, hlength, hlen, hentries⟩ :=
            @AbsState.store_one state (by omega) (code, value)
          obtain ⟨result, asked, hrun, hasked, hends⟩ :=
            ih { next with len := next.len + 1 } _ hnext
              (by simp only [hlength, hlen]; omega)
          refine ⟨result, (code, .ok value) :: asked, ?_, ?_, ?_⟩
          · simp only [hstore, Option.bind_some, hrun, List.append_assoc,
              List.singleton_append]
          · rwa [List.append_assoc, List.singleton_append] at hasked
          · exact @Ends.after codes axisEntries state { next with len := next.len + 1 }
              [(code, .ok value)] asked [(code, value)] (by simp [fatal]) rfl hlength
              (by simp [hlen]) hentries result hends
      | error errno =>
          rw [hanswer] at hnext
          cases hfatal : fatal (.error errno) with
          | some code' =>
              refine ⟨.error code', [(code, .error errno)], ?_, hnext, ?_⟩
              · rfl
              · exact ⟨_, List.mem_singleton_self _, hfatal⟩
          | none =>
              obtain ⟨result, asked, hrun, hasked, hends⟩ :=
                ih state _ hnext (by omega)
              refine ⟨result, (code, .error errno) :: asked, ?_, ?_, ?_⟩
              · simp only [hrun, List.append_assoc, List.singleton_append]
              · rwa [List.append_assoc, List.singleton_append] at hasked
              · exact @Ends.after codes axisEntries state state [(code, .error errno)]
                  asked [] (by simp [hfatal]) rfl rfl (by simp) (by simp) result hends

/-- A point stored in both coordinates, and the points after it. -/
theorem storePoint_ends {pairs : List (Nat × Nat)} {state : AbsState}
    {history : History} {xCode yCode : Nat} {x y : Except Int Int} {first second : Int}
    (hx : fatal x = none) (hy : fatal y = none)
    (hpoint : ∀ asked, pointEntries ((xCode, x) :: (yCode, y) :: asked) =
      (xCode, first) :: (yCode, second) :: pointEntries asked)
    (hroom : state.len + 2 * (pairs.length + 1) ≤ state.abs.length)
    (hrest : ∀ next : AbsState, next.len + 2 * pairs.length ≤ next.abs.length →
      ∃ result asked, queryPairs query pairs next
          (history ++ [(xCode, x), (yCode, y)]) =
          some (result, history ++ [(xCode, x), (yCode, y)] ++ asked) ∧
        Genuine query (history ++ [(xCode, x), (yCode, y)] ++ asked) ∧
        Ends (pairs.flatMap fun pair => [pair.1, pair.2]) pointEntries next asked
          result) :
    ∃ result asked,
      (((state.store state.len (xCode, first)).bind fun state =>
        state.store (state.len + 1) (yCode, second)).bind fun state =>
          queryPairs query pairs { state with len := state.len + 2 }
            (history ++ [(xCode, x), (yCode, y)])) = some (result, history ++ asked) ∧
      Genuine query (history ++ asked) ∧
      Ends (((xCode, yCode) :: pairs).flatMap fun pair => [pair.1, pair.2])
        pointEntries state asked result := by
  obtain ⟨next, hstore, hlength, hlen, hentries⟩ :=
    @AbsState.store_two state (by omega) (xCode, first) (yCode, second)
  obtain ⟨result, asked, hrun, hasked, hends⟩ :=
    hrest { next with len := next.len + 2 } (by simp only [hlength, hlen]; omega)
  refine ⟨result, (xCode, x) :: (yCode, y) :: asked, ?_, ?_, ?_⟩
  · rw [hstore, Option.bind_some, hrun, List.append_assoc]
    rfl
  · rwa [List.append_assoc] at hasked
  · exact @Ends.after (pairs.flatMap fun pair => [pair.1, pair.2]) pointEntries state
      { next with len := next.len + 2 } [(xCode, x), (yCode, y)] asked
      [(xCode, first), (yCode, second)] (by simp [hx, hy]) (hpoint asked) hlength
      (by simp [hlen]) hentries result hends

/-- Points: the run ends with what the answers for both coordinates stand for. -/
theorem queryPairs_ends (pairs : List (Nat × Nat)) (state : AbsState)
    (history : History) (hgenuine : Genuine query history)
    (hroom : state.len + 2 * pairs.length ≤ state.abs.length) :
    ∃ result asked, queryPairs query pairs state history =
        some (result, history ++ asked) ∧
      Genuine query (history ++ asked) ∧
      Ends (pairs.flatMap fun pair => [pair.1, pair.2]) pointEntries state asked
        result := by
  induction pairs generalizing state history with
  | nil =>
      refine ⟨.ok state, [], ?_, ?_, Ends.nil pointEntries rfl state⟩
      · rw [queryPairs, List.append_nil]
      · rw [List.append_nil]
        exact hgenuine
  | cons pair pairs ih =>
      obtain ⟨xCode, yCode⟩ := pair
      rw [List.length_cons] at hroom
      obtain ⟨x, hx⟩ : ∃ x, query history xCode = x := ⟨_, rfl⟩
      obtain ⟨y, hy⟩ : ∃ y, query (history ++ [(xCode, x)]) yCode = y := ⟨_, rfl⟩
      have hnext := hgenuine.snoc xCode
      rw [hx] at hnext
      have hpoint := hnext.snoc yCode
      rw [hy, List.append_assoc, List.singleton_append] at hpoint
      have hrest := fun next => ih next _ hpoint
      rw [queryPairs]
      simp only [hx, hy]
      cases hxFatal : fatal x with
      | some errno =>
          exact ⟨.error errno, [(xCode, x), (yCode, y)], rfl, hpoint, (xCode, x),
            List.mem_cons_self, hxFatal⟩
      | none =>
          cases hyFatal : fatal y with
          | some errno =>
              exact ⟨.error errno, [(xCode, x), (yCode, y)], rfl, hpoint, (yCode, y),
                List.mem_cons_of_mem _ List.mem_cons_self, hyFatal⟩
          | none =>
              cases x with
              | error errno =>
                  exact storePoint_ends hxFatal hyFatal (fun _ => rfl) hroom hrest
              | ok x =>
                  cases y with
                  | error errno =>
                      exact storePoint_ends hxFatal hyFatal (fun _ => rfl) hroom hrest
                  | ok y =>
                      exact storePoint_ends hxFatal hyFatal (fun _ => rfl) hroom hrest

theorem irPairs : (asChunks (absCodes .ir)).1.length = 4 ∧
    (asChunks (absCodes .ir)).2 = [] ∧
    ((asChunks (absCodes .ir)).1.flatMap fun pair => [pair.1, pair.2]) =
      absCodes .ir := by
  decide

theorem absCodes_length (kind : InterfaceKind) : (absCodes kind).length ≤ 9 := by
  cases kind <;> decide

/-- The query returns for every kind: with the entries that its answers stand for, or
with a fatal one. -/
theorem queryAbsState_ends (kind : InterfaceKind) :
    ∃ result history, queryAbsState kind query = some (result, history) ∧
      Genuine query history ∧
      Ends (absCodes kind) (seedEntries kind) {} history result := by
  have hstart : Genuine query [] := by
    intro before entry after hsplit
    exact absurd hsplit.symm (by simp)
  by_cases hkind : kind = .ir
  · subst hkind
    obtain ⟨hlength, hremainder, hcodes⟩ := irPairs
    obtain ⟨result, history, hrun, hgenuine, hends⟩ :=
      @queryPairs_ends query (asChunks (absCodes .ir)).1 {} [] hstart
        (by rw [hlength]; decide)
    rw [hcodes] at hends
    refine ⟨result, history, ?_, hgenuine, hends⟩
    rw [queryAbsState, if_pos rfl, if_pos hremainder, hrun, List.nil_append]
  · obtain ⟨result, history, hrun, hgenuine, hends⟩ :=
      @queryCodes_ends query (absCodes kind) {} [] hstart
        (by simpa using absCodes_length kind)
    refine ⟨result, history, ?_, hgenuine, ?_⟩
    · rw [queryAbsState, if_neg hkind, hrun, List.nil_append]
    · have hentries : seedEntries kind = axisEntries := by
        funext history
        exact if_neg hkind
      rwa [hentries]

end Hid

end Wiiland
