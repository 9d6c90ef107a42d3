/-
Cleanup of the public socket while other processes act on its name.  One run of
`remove_expected_entry` captures an entry by renaming it, deletes it only if it is the
expected socket and otherwise gives it back or keeps it.
-/
import Wiiland.Daemon.SocketSystem

namespace Wiiland

namespace Daemon

namespace Socket

open Interference

variable {process : Process} {name : Name} {inode : Inode} {state after : State}
  {log : List Step}

theorem runs_require {condition : Bool} {error : IoError} {result : Except IoError Unit} :
    Runs (shared process name) (require condition error) state log result after ↔
      log = [] ∧ Relation.ReflTransGen (Others name) state after ∧
        result = if condition then .ok () else .error error := by
  cases condition with
  | true =>
      rw [require, if_pos rfl, if_pos rfl, runs_pure]
      exact ⟨fun ⟨hlog, hresult, hothers⟩ => ⟨hlog, hothers, hresult⟩,
        fun ⟨hlog, hothers, hresult⟩ => ⟨hlog, hresult, hothers⟩⟩
  | false =>
      rw [require, if_neg Bool.false_ne_true, if_neg Bool.false_ne_true, runs_throw]
      exact ⟨fun ⟨hlog, hresult, hothers⟩ => ⟨hlog, hothers, hresult⟩,
        fun ⟨hlog, hothers, hresult⟩ => ⟨hlog, hresult, hothers⟩⟩

/-- What follows a check that has passed. -/
theorem runs_require_andThen {α : Type} {condition : Bool} {error : IoError} {rest : Io α}
    {result : Except IoError α} :
    Runs (shared process name) (do require condition error; rest : Io α) state log
        result after ↔
      condition = true ∧ Runs (shared process name) rest state log result after ∨
      condition = false ∧ log = [] ∧ Relation.ReflTransGen (Others name) state after ∧
        result = .error error := by
  rw [runs_andThen]
  constructor
  · rintro (⟨_, middle, first, second, hfirst, hrest, rfl⟩ | ⟨cause, hfirst, rfl⟩)
    · obtain ⟨rfl, hothers, hresult⟩ := runs_require.mp hfirst
      cases condition with
      | true => exact .inl ⟨rfl, hrest.after_others hothers⟩
      | false => cases hresult
    · obtain ⟨rfl, hothers, hresult⟩ := runs_require.mp hfirst
      cases condition with
      | true => cases hresult
      | false =>
          obtain rfl : cause = error := by simpa using hresult
          exact .inr ⟨rfl, rfl, hothers, rfl⟩
  · rintro (⟨rfl, hrest⟩ | ⟨rfl, rfl, hothers, rfl⟩)
    · exact .inl ⟨(), state, [], log, runs_require.mpr ⟨rfl, .refl, rfl⟩, hrest, rfl⟩
    · exact .inr ⟨error, runs_require.mpr ⟨rfl, hothers, rfl⟩, rfl⟩

/-- A name without a NUL byte. -/
def Plain (name : Name) : Prop := name.contains 0 = false

theorem runs_osCString_andThen {α : Type} {checked : Name} {rest : Io α}
    {result : Except IoError α} :
    Runs (shared process name) (do osCString checked; rest : Io α) state log result
        after ↔
      Plain checked ∧ Runs (shared process name) rest state log result after ∨
      ¬Plain checked ∧ log = [] ∧ Relation.ReflTransGen (Others name) state after ∧
        result = .error (.custom .invalidInput "IPC path contains a NUL byte") := by
  rw [osCString, runs_require_andThen, Plain, Bool.not_eq_true', Bool.not_eq_false',
    Bool.not_eq_false]

theorem runs_attempt_andThen {α β : Type} {program : Io α} {rest : Except IoError α → Io β}
    {result : Except IoError β} :
    Runs (shared process name) (attempt program >>= rest : Io β) state log result after ↔
      ∃ value middle first second, Runs (shared process name) program state first value middle ∧
        Runs (shared process name) (rest value) middle second result after ∧
        log = first ++ second := by
  rw [runs_andThen]
  constructor
  · rintro (⟨_, middle, first, second, hfirst, hrest, rfl⟩ | ⟨_, hfirst, rfl⟩)
    · obtain ⟨_, hfirst, hvalue⟩ := runs_attempt.mp hfirst
      cases hvalue
      exact ⟨_, middle, first, second, hfirst, hrest, rfl⟩
    · obtain ⟨_, _, hvalue⟩ := runs_attempt.mp hfirst
      cases hvalue
  · rintro ⟨value, middle, first, second, hfirst, hrest, rfl⟩
    exact .inl ⟨value, middle, first, second, runs_attempt.mpr ⟨value, hfirst, rfl⟩, hrest, rfl⟩

/-- A renaming of the daemon: it moves the entry, or says why not. -/
theorem runs_rename {source target : Name} {result : Except IoError Unit}
    (hruns : Runs (shared process name) (perform (.renameat2 source target)) state log result
      after) :
    ∃ before middle, Relation.ReflTransGen (Others name) state before ∧
      Relation.ReflTransGen (Others name) middle after ∧
      log = [⟨before, .renameat2 source target, result, middle⟩] ∧
      ((result, middle) = before.rename source target ∨ Faulty result ∧ middle = before) := by
  obtain ⟨before, middle, hothers, hanswers, hlater, rfl⟩ := runs_perform.mp hruns
  exact ⟨before, middle, hothers, hlater, rfl, hanswers⟩

/-- What a cleanup of one name does: it deletes an entry only after it has captured it and
found the expected socket; everything else that it captures is back under the name or
still in quarantine, and no other call loses an entry. -/
structure CleanupExact (process : Process) (name : Name) (inode : Inode) (log : List Step)
    (after : State) : Prop where
  unlinks : ∀ event ∈ log, ∀ place entry, unlinked event = some (place, entry) →
    (entry.isSocket = true ∧ entry.inode = inode) ∧
      ∃ capture ∈ log, renamed capture = some (name, place, entry)
  captures : ∀ event ∈ log, ∀ place entry, renamed event = some (name, place, entry) →
    (∃ sequence, place = quarantineName process inode sequence) ∧
      ((entry.isSocket = true ∧ entry.inode = inode) ∧
          (∃ removal ∈ log, unlinked removal = some (place, entry)) ∨
        (∃ restore ∈ log, renamed restore = some (place, name, entry)) ∨
        after.entries place = some entry ∧ ∃ restore ∈ log, NotRenamed place name restore)
  keeps : ∀ event ∈ log, unlinked event = none → Keeps event

theorem CleanupExact.of_quiet (hquiet : ∀ event ∈ log, Quiet event) :
    CleanupExact process name inode log after where
  unlinks event hevent place entry hunlinked := by
    rw [(hquiet event hevent).1] at hunlinked
    cases hunlinked
  captures event hevent place entry hrenamed := by
    rw [(hquiet event hevent).2.1] at hrenamed
    cases hrenamed
  keeps event hevent _ := (hquiet event hevent).keeps

/-- An entry captured from the public name by the last call of a log. -/
structure Captures (process : Process) (name : Name) (inode : Inode) (log : List Step)
    (quarantine : Name) (entry : EntryMetadata) : Prop where
  place : ∃ sequence, quarantine = quarantineName process inode sequence
  plain : Plain quarantine
  other : quarantine ≠ name
  steps : ∃ tries capture, log = tries ++ [capture] ∧ (∀ event ∈ tries, Quiet event) ∧
    unlinked capture = none ∧ renamed capture = some (name, quarantine, entry) ∧
    Keeps capture

theorem Captures.after_quiet {quarantine : Name} {entry : EntryMetadata} {event : Step}
    (hcaptures : Captures process name inode log quarantine entry) (hquiet : Quiet event) :
    Captures process name inode (event :: log) quarantine entry := by
  obtain ⟨tries, capture, rfl, htries, hsteps⟩ := hcaptures.steps
  refine ⟨hcaptures.place, hcaptures.plain, hcaptures.other, event :: tries, capture, rfl,
    fun other hother => ?_, hsteps⟩
  rcases List.mem_cons.mp hother with rfl | hother
  · exact hquiet
  · exact htries other hother

/-- A rename that the daemon asked for and did not get. -/
theorem quiet_of_failed {source target : Name} {before middle : State} {error : IoError}
    (hanswers : (.error error, middle) = before.rename source target ∨
      Faulty (.error error : Except IoError Unit) ∧ middle = before) :
    Quiet ⟨before, .renameat2 source target, .error error, middle⟩ := by
  refine ⟨rfl, rfl, ?_⟩
  rcases hanswers with hrename | ⟨_, rfl⟩
  · rcases rename_cases source target with ⟨_, hcase⟩ | ⟨_, _, _, hcase⟩ | ⟨_, _, _, _, hcase⟩ <;>
      rw [hcase] at hrename <;> cases hrename <;> rfl
  · rfl

/-- Why a rename of an entry that is there was refused. -/
theorem notRenamed_of_failed {source target : Name} {before middle : State} {error : IoError}
    {entry : EntryMetadata} (hheld : before.entries source = some entry)
    (hanswers : (.error error, middle) = before.rename source target ∨
      Faulty (.error error : Except IoError Unit) ∧ middle = before) :
    NotRenamed source target ⟨before, .renameat2 source target, .error error, middle⟩ := by
  rcases hanswers with hrename | ⟨⟨errno, herror, hfault⟩, _⟩
  · rcases rename_cases source target with
      ⟨hnone, _⟩ | ⟨_, _, htaken, hcase⟩ | ⟨_, _, _, _, hcase⟩
    · rw [hheld] at hnone
      exact absurd hnone (Option.some_ne_none _)
    · rw [hcase] at hrename
      cases hrename
      exact ⟨_, eexist, _, rfl, .inl ⟨rfl, htaken⟩⟩
    · rw [hcase] at hrename
      cases hrename
  · cases herror
    exact ⟨_, errno, _, rfl, .inr hfault⟩

/-- A rename that the daemon asked for and got. -/
theorem rename_succeeds {source target : Name} {before middle : State}
    (hanswers : (.ok (), middle) = before.rename source target ∨
      Faulty (.ok () : Except IoError Unit) ∧ middle = before) :
    ∃ entry, target ≠ source ∧ before.entries source = some entry ∧
      renamed ⟨before, .renameat2 source target, .ok (), middle⟩ = some (source, target, entry) ∧
      Keeps ⟨before, .renameat2 source target, .ok (), middle⟩ ∧
      middle.entries target = some entry := by
  rcases hanswers with hrename | ⟨⟨_, hfaulty, _⟩, _⟩
  · rcases rename_cases source target with
      ⟨_, hcase⟩ | ⟨_, _, _, hcase⟩ | ⟨entry, hsource, htarget, hother, hcase⟩
    · rw [hcase] at hrename
      cases hrename
    · rw [hcase] at hrename
      cases hrename
    · rw [hcase, Prod.mk.injEq] at hrename
      obtain ⟨_, rfl⟩ := hrename
      exact ⟨entry, hother.symm, hsource, by simp only [renamed, hsource, Option.map_some],
        fun _ _ hheld => rename_keeps hsource htarget hheld, put_self _⟩
  · cases hfaulty

theorem captureTries_cases {tries : Nat} {result : Except IoError (Option Name)}
    (hruns : Runs (shared process name) (captureTries process name inode tries) state log
      result after) :
    ((∀ event ∈ log, Quiet event) ∧ ∀ quarantine, result ≠ .ok (some quarantine)) ∨
    ∃ quarantine entry, result = .ok (some quarantine) ∧
      Captures process name inode log quarantine entry ∧
      after.entries quarantine = some entry := by
  induction tries generalizing state log with
  | zero =>
      obtain ⟨rfl, rfl, _⟩ := runs_throw.mp hruns
      exact .inl ⟨by simp, fun _ hresult => by cases hresult⟩
  | succ tries ih =>
      rw [captureTries, runs_andThen] at hruns
      rcases hruns with ⟨sequence, counted, fetch, log, hfetch, hruns, rfl⟩ |
        ⟨error, hfetch, rfl⟩
      · obtain ⟨before, middle, _, hanswers, _, rfl⟩ := runs_perform.mp hfetch
        have hfetched : Quiet ⟨before, .fetchAdd, .ok sequence, middle⟩ :=
          ⟨rfl, rfl, by rw [hanswers.2]⟩
        rw [runs_osCString_andThen] at hruns
        rcases hruns with ⟨hplain, hruns⟩ | ⟨_, rfl, _, rfl⟩
        · rw [runs_attempt_andThen] at hruns
          obtain ⟨answer, moved, tried, log, htried, hruns, rfl⟩ := hruns
          obtain ⟨place, there, _, hlater, rfl, hanswers⟩ := runs_rename htried
          cases answer with
          | ok _ =>
              obtain ⟨rfl, rfl, hthen⟩ := runs_done.mp hruns
              obtain ⟨entry, hother, hheld, hrenamed, hkeeps, hthere⟩ := rename_succeeds hanswers
              refine .inr ⟨_, entry, rfl, ⟨⟨sequence, rfl⟩, hplain, hother, [_], _, rfl,
                by simpa using hfetched, rfl, hrenamed, hkeeps⟩, ?_⟩
              rw [others_entries (hlater.trans hthen) hother, hthere]
          | error error =>
              have hmoved := quiet_of_failed hanswers
              dsimp only at hruns
              have hlog {log : List Step} (hquiet : ∀ event ∈ log, Quiet event) :
                  ∀ event ∈ _ :: _ :: log, Quiet event :=
                List.forall_mem_cons.mpr ⟨hfetched, List.forall_mem_cons.mpr ⟨hmoved, hquiet⟩⟩
              by_cases htaken : error.rawOsError = some eexist
              · rw [if_pos htaken] at hruns
                rcases ih hruns with
                  ⟨hquiet, hnone⟩ | ⟨quarantine, entry, hresult, hcaptures, hheld⟩
                · exact .inl ⟨hlog hquiet, hnone⟩
                · exact .inr ⟨quarantine, entry, hresult,
                    (hcaptures.after_quiet hmoved).after_quiet hfetched, hheld⟩
              · rw [if_neg htaken] at hruns
                by_cases hgone : error.rawOsError = some enoent
                · rw [if_pos hgone] at hruns
                  obtain ⟨rfl, rfl, _⟩ := runs_pure.mp hruns
                  exact .inl ⟨hlog (by simp), fun _ hresult => by cases hresult⟩
                · rw [if_neg hgone] at hruns
                  obtain ⟨rfl, rfl, _⟩ := runs_throw.mp hruns
                  exact .inl ⟨hlog (by simp), fun _ hresult => by cases hresult⟩
        · exact .inl ⟨by simpa using hfetched, fun _ hresult => by cases hresult⟩
      · obtain ⟨_, _, _, hanswers, _⟩ := runs_perform.mp hfetch
        cases hanswers.1

theorem captureEntry_cases {result : Except IoError (Option Name)}
    (hruns : Runs (shared process name) (captureEntry process name inode) state log
      result after) :
    ((∀ event ∈ log, Quiet event) ∧ ∀ quarantine, result ≠ .ok (some quarantine)) ∨
    ∃ quarantine entry, result = .ok (some quarantine) ∧ Plain name ∧
      Captures process name inode log quarantine entry ∧
      after.entries quarantine = some entry := by
  rw [captureEntry, runs_osCString_andThen] at hruns
  rcases hruns with ⟨hplain, hruns⟩ | ⟨_, rfl, _, rfl⟩
  · rcases captureTries_cases hruns with hquiet | ⟨quarantine, entry, hresult, hcaptured⟩
    · exact .inl hquiet
    · exact .inr ⟨quarantine, entry, hresult, hplain, hcaptured⟩
  · exact .inl ⟨by simp, fun _ hresult => by cases hresult⟩

section captured

variable {quarantine : Name} {entry : EntryMetadata}

/-- A captured entry goes back to its name, or stays where it is because the name is
taken again or the system failed. -/
theorem restoreCapture_cases {result : Except IoError Unit} (hname : Plain name)
    (hplain : Plain quarantine) (hother : quarantine ≠ name)
    (hheld : state.entries quarantine = some entry)
    (hruns : Runs (shared process name) (restoreCapture quarantine name) state log result
      after) :
    ∃ event, log = [event] ∧ unlinked event = none ∧ Keeps event ∧
      (renamed event = some (quarantine, name, entry) ∨
        renamed event = none ∧ NotRenamed quarantine name event ∧
          after.entries quarantine = some entry) := by
  rw [restoreCapture, runs_osCString_andThen] at hruns
  rcases hruns with ⟨_, hruns⟩ | ⟨hnot, _⟩
  · rw [runs_osCString_andThen] at hruns
    rcases hruns with ⟨_, hruns⟩ | ⟨hnot, _⟩
    · obtain ⟨before, middle, hothers, hlater, rfl, hanswers⟩ := runs_rename hruns
      have hbefore : before.entries quarantine = some entry := by
        rw [others_entries hothers hother, hheld]
      cases result with
      | ok _ =>
          obtain ⟨moved, _, hmoved, hrenamed, hkeeps, _⟩ := rename_succeeds hanswers
          rw [hbefore, Option.some.injEq] at hmoved
          subst hmoved
          exact ⟨_, rfl, rfl, hkeeps, .inl hrenamed⟩
      | error error =>
          have hquiet := quiet_of_failed hanswers
          refine ⟨_, rfl, rfl, hquiet.keeps, .inr ⟨rfl, ?_, ?_⟩⟩
          · exact notRenamed_of_failed hbefore hanswers
          · have hmiddle : middle.entries = before.entries := hquiet.2.2
            rw [others_entries hlater hother, hmiddle, hbefore]
    · exact absurd hname hnot
  · exact absurd hplain hnot

/-- What the calls after a capture do with the captured entry. -/
def Handles (name quarantine : Name) (entry : EntryMetadata) (inode : Inode)
    (event : Step) : Prop :=
  unlinked event = none ∧ renamed event = none ∧ Keeps event ∨
    unlinked event = some (quarantine, entry) ∧ renamed event = none ∧
      entry.isSocket = true ∧ entry.inode = inode ∨
    unlinked event = none ∧ renamed event = some (quarantine, name, entry) ∧ Keeps event

/-- Where a captured entry is in the end. -/
def Settled (name quarantine : Name) (entry : EntryMetadata) (inode : Inode)
    (rest : List Step) (after : State) : Prop :=
  (entry.isSocket = true ∧ entry.inode = inode) ∧
      (∃ removal ∈ rest, unlinked removal = some (quarantine, entry)) ∨
    (∃ restore ∈ rest, renamed restore = some (quarantine, name, entry)) ∨
    after.entries quarantine = some entry ∧ ∃ restore ∈ rest, NotRenamed quarantine name restore

theorem Captures.exact {rest : List Step}
    (hcaptures : Captures process name inode log quarantine entry)
    (hhandles : ∀ event ∈ rest, Handles name quarantine entry inode event)
    (hsettled : Settled name quarantine entry inode rest after) :
    CleanupExact process name inode (log ++ rest) after := by
  obtain ⟨tries, capture, rfl, htries, hunlinked, hrenamed, hkeeps⟩ := hcaptures.steps
  have hcases : ∀ event ∈ tries ++ [capture] ++ rest,
      Quiet event ∨ event = capture ∨ Handles name quarantine entry inode event := by
    intro event hevent
    rcases List.mem_append.mp hevent with hevent | hevent
    · rcases List.mem_append.mp hevent with hevent | hevent
      · exact .inl (htries event hevent)
      · exact .inr (.inl (List.mem_singleton.mp hevent))
    · exact .inr (.inr (hhandles event hevent))
  have hin : ∀ event ∈ rest, event ∈ tries ++ [capture] ++ rest :=
    fun event hevent => List.mem_append_right _ hevent
  refine ⟨fun event hevent place held hevents => ?_, fun event hevent place held hevents => ?_,
    fun event hevent hnone => ?_⟩
  · rcases hcases event hevent with hquiet | rfl | ⟨hnone, _⟩ | ⟨hsome, _, hexpected⟩ | ⟨hnone, _⟩
    · rw [hquiet.1] at hevents
      cases hevents
    · rw [hunlinked] at hevents
      cases hevents
    · rw [hnone] at hevents
      cases hevents
    · rw [hsome] at hevents
      cases hevents
      exact ⟨hexpected, capture, by simp, hrenamed⟩
    · rw [hnone] at hevents
      cases hevents
  · rcases hcases event hevent with
      hquiet | rfl | ⟨_, hnone, _⟩ | ⟨_, hnone, _⟩ | ⟨_, hsome, _⟩
    · rw [hquiet.2.1] at hevents
      cases hevents
    · rw [hrenamed] at hevents
      cases hevents
      refine ⟨hcaptures.place, ?_⟩
      rcases hsettled with ⟨hexpected, removal, hremoval, hgone⟩ | ⟨restore, hrestore, hback⟩ |
        ⟨hkept, restore, hrestore, hnot⟩
      · exact .inl ⟨hexpected, removal, hin removal hremoval, hgone⟩
      · exact .inr (.inl ⟨restore, hin restore hrestore, hback⟩)
      · exact .inr (.inr ⟨hkept, restore, hin restore hrestore, hnot⟩)
    · rw [hnone] at hevents
      cases hevents
    · rw [hnone] at hevents
      cases hevents
    · rw [hsome] at hevents
      cases hevents
      exact absurd rfl hcaptures.other
  · rcases hcases event hevent with hquiet | rfl | ⟨_, _, hkept⟩ | ⟨hsome, _⟩ | ⟨_, _, hkept⟩
    · exact hquiet.keeps
    · exact hkeeps
    · exact hkept
    · rw [hnone] at hsome
      cases hsome
    · exact hkept

/-- The calls that give a captured entry back settle it. -/
theorem restore_settles {result : Except IoError Unit} (hname : Plain name)
    (hcaptures : Captures process name inode log quarantine entry) {rest : List Step}
    (hheld : state.entries quarantine = some entry)
    (hruns : Runs (shared process name) (restoreCapture quarantine name) state rest result
      after) :
    (∀ event ∈ rest, Handles name quarantine entry inode event) ∧
      Settled name quarantine entry inode rest after := by
  obtain ⟨event, rfl, hunlinked, hkeeps, hrestored⟩ :=
    restoreCapture_cases hname hcaptures.plain hcaptures.other hheld hruns
  rw [List.forall_mem_singleton]
  rcases hrestored with hback | ⟨hnone, hnot, hkept⟩
  · exact ⟨.inr (.inr ⟨hunlinked, hback, hkeeps⟩),
      .inr (.inl ⟨event, List.mem_singleton_self _, hback⟩)⟩
  · exact ⟨.inl ⟨hunlinked, hnone, hkeeps⟩,
      .inr (.inr ⟨hkept, event, List.mem_singleton_self _, hnot⟩)⟩

/-- A restore after which the cleanup reports an error, whatever the restore answered. -/
theorem restore_then_settles {result : Except IoError Unit} (hname : Plain name)
    (hcaptures : Captures process name inode log quarantine entry) {rest : List Step}
    (hheld : state.entries quarantine = some entry) {report : Except IoError Unit → Io Unit}
    (hreport : ∀ restored, ∃ error, report restored = throw error)
    (hruns : Runs (shared process name)
      (attempt (restoreCapture quarantine name) >>= report : Io Unit) state rest result after) :
    (∀ event ∈ rest, Handles name quarantine entry inode event) ∧
      Settled name quarantine entry inode rest after := by
  obtain ⟨restored, middle, first, second, hrestore, hthrow, rfl⟩ :=
    runs_attempt_andThen.mp hruns
  obtain ⟨error, herror⟩ := hreport restored
  rw [herror] at hthrow
  obtain ⟨rfl, _, hothers⟩ := runs_throw.mp hthrow
  rw [List.append_nil]
  exact restore_settles hname hcaptures hheld (hrestore.before_others hothers)

theorem Settled.cons {rest : List Step} {event : Step}
    (hsettled : Settled name quarantine entry inode rest after) :
    Settled name quarantine entry inode (event :: rest) after := by
  rcases hsettled with ⟨hexpected, removal, hremoval, hgone⟩ | ⟨restore, hrestore, hback⟩ |
    ⟨hkept, restore, hrestore, hnot⟩
  · exact .inl ⟨hexpected, removal, List.mem_cons_of_mem _ hremoval, hgone⟩
  · exact .inr (.inl ⟨restore, List.mem_cons_of_mem _ hrestore, hback⟩)
  · exact .inr (.inr ⟨hkept, restore, List.mem_cons_of_mem _ hrestore, hnot⟩)

end captured

/-- Reading the metadata of an entry in quarantine gives that entry, or fails. -/
theorem entryMetadata_kept {quarantine : Name} {entry : EntryMetadata}
    {result : Except IoError EntryMetadata} (hplain : Plain quarantine)
    (hother : quarantine ≠ name) (hheld : state.entries quarantine = some entry)
    (hruns : Runs (shared process name) (entryMetadata quarantine) state log result after) :
    (∃ event, log = [event] ∧ Quiet event) ∧ after.entries quarantine = some entry ∧
      ∀ found, result = .ok found → found = entry := by
  rw [entryMetadata, runs_osCString_andThen] at hruns
  rcases hruns with ⟨_, hruns⟩ | ⟨hnot, _⟩
  · obtain ⟨before, middle, hothers, ⟨rfl, hanswers⟩, hlater, rfl⟩ := runs_perform.mp hruns
    have hbefore : middle.entries quarantine = some entry := by
      rw [others_entries hothers hother, hheld]
    refine ⟨⟨_, rfl, by cases result <;> exact ⟨rfl, rfl, rfl⟩⟩,
      by rw [others_entries hlater hother, hbefore], fun found hfound => ?_⟩
    subst hfound
    rcases hanswers with hread | ⟨_, hfaulty, _⟩
    · rw [State.lookup, hbefore] at hread
      cases hread
      rfl
    · cases hfaulty
  · exact absurd hplain hnot

/-- Deleting an entry in quarantine deletes that entry, or leaves it there. -/
theorem runs_unlink {quarantine : Name} {entry : EntryMetadata}
    {result : Except IoError Unit} (hother : quarantine ≠ name)
    (hheld : state.entries quarantine = some entry)
    (hruns : Runs (shared process name) (perform (.unlinkat quarantine)) state log result
      after) :
    ∃ event, log = [event] ∧
      (result = .ok () ∧ unlinked event = some (quarantine, entry) ∧ renamed event = none ∨
        Quiet event ∧ result ≠ .ok () ∧ after.entries quarantine = some entry) := by
  obtain ⟨before, middle, hothers, hanswers, hlater, rfl⟩ := runs_perform.mp hruns
  have hbefore : before.entries quarantine = some entry := by
    rw [others_entries hothers hother, hheld]
  rcases hanswers with hunlink | ⟨⟨errno, rfl, _⟩, rfl⟩
  · rw [State.unlink, hbefore] at hunlink
    cases hunlink
    exact ⟨_, rfl, .inl ⟨rfl, by simp only [unlinked, hbefore, Option.map_some], rfl⟩⟩
  · exact ⟨_, rfl, .inr ⟨⟨rfl, rfl, rfl⟩, by simp,
      by rw [others_entries hlater hother, hbefore]⟩⟩

/-- One cleanup is exact, whatever other processes do to the public name meanwhile. -/
theorem removeExpectedEntry_exact {result : Except IoError Unit}
    (hruns : Runs (shared process name) (removeExpectedEntry process name inode) state log
      result after) : CleanupExact process name inode log after := by
  rw [removeExpectedEntry, runs_andThen] at hruns
  rcases hruns with ⟨captured, middle, capture, rest, hcapture, hruns, rfl⟩ |
    ⟨error, hcapture, rfl⟩
  · rcases captureEntry_cases hcapture with ⟨hquiet, hnone⟩ |
      ⟨quarantine, entry, hresult, hname, hcaptures, hheld⟩
    · cases captured with
      | some quarantine => exact absurd rfl (hnone quarantine)
      | none =>
          obtain ⟨rfl, _, _⟩ := runs_pure.mp hruns
          rw [List.append_nil]
          exact .of_quiet hquiet
    · cases hresult
      dsimp only at hruns
      rw [runs_attempt_andThen] at hruns
      obtain ⟨found, there, read, rest, hread, hruns, rfl⟩ := hruns
      obtain ⟨⟨reading, rfl, hreading⟩, hthere, hfound⟩ :=
        entryMetadata_kept hcaptures.plain hcaptures.other hheld hread
      suffices hrest : (∀ event ∈ rest, Handles name quarantine entry inode event) ∧
          Settled name quarantine entry inode rest after from
        hcaptures.exact (List.forall_mem_cons.mpr
          ⟨.inl ⟨hreading.1, hreading.2.1, hreading.keeps⟩, hrest.1⟩) hrest.2.cons
      cases found with
      | error error =>
          exact restore_then_settles hname hcaptures hthere (fun _ => ⟨error, rfl⟩) hruns
      | ok found =>
          obtain rfl := hfound found rfl
          dsimp only at hruns
          by_cases hexpected : (!found.isSocket || decide (found.inode ≠ inode)) = true
          · rw [if_pos hexpected] at hruns
            refine restore_then_settles hname hcaptures hthere (fun restored => ?_) hruns
            cases restored with
            | ok _ => exact ⟨_, rfl⟩
            | error error => exact ⟨_, rfl⟩
          · rw [if_neg hexpected] at hruns
            simp only [ne_eq, decide_not, Bool.or_eq_true, Bool.not_eq_eq_eq_not, Bool.not_true,
              decide_eq_false_iff_not, not_or, Bool.not_eq_false, not_not] at hexpected
            rw [runs_osCString_andThen] at hruns
            rcases hruns with ⟨_, hruns⟩ | ⟨hnot, _⟩
            · rw [runs_attempt_andThen] at hruns
              obtain ⟨answer, removed, removal, rest, hremoval, hruns, rfl⟩ := hruns
              obtain ⟨event, rfl, ⟨rfl, hgone, hnone⟩ | ⟨hquiet, hfailed, hstays⟩⟩ :=
                runs_unlink hcaptures.other hthere hremoval
              · obtain ⟨rfl, _, _⟩ := runs_pure.mp hruns
                rw [List.append_nil, List.forall_mem_singleton]
                exact ⟨.inr (.inl ⟨hgone, hnone, hexpected⟩),
                  .inl ⟨hexpected, event, List.mem_singleton_self _, hgone⟩⟩
              · cases answer with
                | ok _ => exact absurd rfl hfailed
                | error error =>
                    obtain ⟨hhandles, hsettled⟩ :=
                      restore_then_settles hname hcaptures hstays (fun _ => ⟨error, rfl⟩) hruns
                    exact ⟨List.forall_mem_cons.mpr
                      ⟨.inl ⟨hquiet.1, hquiet.2.1, hquiet.keeps⟩, hhandles⟩, hsettled.cons⟩
            · exact absurd hcaptures.plain hnot
  · rcases captureEntry_cases hcapture with ⟨hquiet, _⟩ | ⟨_, _, hresult, _⟩
    · exact .of_quiet hquiet
    · cases hresult

end Socket

end Daemon

end Wiiland
