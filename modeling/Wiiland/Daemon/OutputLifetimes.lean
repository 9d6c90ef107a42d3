/-
Every descriptor of a virtual device has one life: it is opened, set up, created and
destroyed once, and closed once, whatever the system answers.
-/
import Wiiland.Daemon.VirtualDevice
import Wiiland.Lib.Lifetime

namespace Wiiland

namespace Daemon

namespace Uinput

open Mapping Lifetime

namespace BackendEvent

def fd : BackendEvent → Option Nat
  | .opened _ fd => some fd
  | .openFailed _ _ => none
  | .ioctl fd _ _ _ | .write fd _ _ | .close fd => some fd

/-- A call between the steps of a life: a write, or a request that neither destroys
the device nor creates it. -/
def isPlain : BackendEvent → Bool
  | .ioctl _ request _ error =>
      request != uiDevDestroy && (request != uiDevCreate || error.isSome)
  | .write _ _ _ => true
  | _ => false

end BackendEvent

inductive Status where
  | closed
  | opened
  | created
  | destroyed
deriving DecidableEq

/-- The life cycle of a descriptor. -/
def Status.next : Status → BackendEvent → Option Status
  | .closed, .opened _ _ => some .opened
  | .opened, .close _ => some .closed
  | .opened, .ioctl fd request arg error =>
      if (BackendEvent.ioctl fd request arg error).isPlain then some .opened
      else if request = uiDevCreate then some .created
      else none
  | .opened, .write _ _ _ => some .opened
  | .created, .ioctl fd request arg error =>
      if (BackendEvent.ioctl fd request arg error).isPlain then some .created
      else if request = uiDevDestroy then some .destroyed
      else none
  | .created, .write _ _ _ => some .created
  | .destroyed, .close _ => some .closed
  | _, _ => none

/-- The life of a descriptor: one close for its open, and a destroy before the close
exactly where the device was created. -/
inductive Life (fd : Nat) : List BackendEvent → Prop
  | unmade {path : String} {setup : List BackendEvent}
      (hsetup : ∀ event ∈ setup, event.isPlain = true) :
      Life fd (.opened path fd :: setup ++ [.close fd])
  | made {path : String} {setup uses : List BackendEvent} {arg arg' : Int}
      {error : Option Int} (hsetup : ∀ event ∈ setup, event.isPlain = true)
      (huses : ∀ event ∈ uses, event.isPlain = true) :
      Life fd (.opened path fd :: setup ++ .ioctl fd uiDevCreate arg .none :: uses ++
        [.ioctl fd uiDevDestroy arg' error, .close fd])

/-- What a descriptor shows of a life that has not ended. -/
inductive Begun (fd : Nat) : Status → List BackendEvent → Prop
  | closed : Begun fd .closed []
  | opened {path : String} {setup : List BackendEvent}
      (hsetup : ∀ event ∈ setup, event.isPlain = true) :
      Begun fd .opened (.opened path fd :: setup)
  | created {path : String} {setup uses : List BackendEvent} {arg : Int}
      (hsetup : ∀ event ∈ setup, event.isPlain = true)
      (huses : ∀ event ∈ uses, event.isPlain = true) :
      Begun fd .created (.opened path fd :: setup ++ .ioctl fd uiDevCreate arg .none :: uses)
  | destroyed {path : String} {setup uses : List BackendEvent} {arg arg' : Int}
      {error : Option Int} (hsetup : ∀ event ∈ setup, event.isPlain = true)
      (huses : ∀ event ∈ uses, event.isPlain = true) :
      Begun fd .destroyed (.opened path fd :: setup ++
        .ioctl fd uiDevCreate arg .none :: uses ++ [.ioctl fd uiDevDestroy arg' error])

/-- The calls of a descriptor are whole lives and one that may not have ended. -/
def Shows (fd : Nat) (status : Status) (events : List BackendEvent) : Prop :=
  ∃ (lives : List (List BackendEvent)) (current : List BackendEvent),
    (∀ life ∈ lives, Life fd life) ∧ Begun fd status current ∧ events = lives.flatten ++ current

theorem plain_append {events : List BackendEvent} {event : BackendEvent}
    (hevents : ∀ event ∈ events, event.isPlain = true) (hevent : event.isPlain = true) :
    ∀ found ∈ events ++ [event], found.isPlain = true := by
  intro found hmem
  rcases List.mem_append.mp hmem with hold | hnew
  · exact hevents found hold
  · rw [List.mem_singleton.mp hnew]
    exact hevent

/-- One more call of a descriptor. -/
theorem Shows.next {fd : Nat} {status after : Status} {events : List BackendEvent}
    {event : BackendEvent} (hshows : Shows fd status events) (hfd : event.fd = some fd)
    (hnext : status.next event = some after) : Shows fd after (events ++ [event]) := by
  obtain ⟨lives, current, hlives, hbegun, rfl⟩ := hshows
  have hgoes : ∀ longer, Begun fd after longer → longer = current ++ [event] →
      Shows fd after (lives.flatten ++ current ++ [event]) := by
    rintro longer hlonger rfl
    exact ⟨lives, _, hlives, hlonger, List.append_assoc _ _ _⟩
  have hends : after = .closed → Life fd (current ++ [event]) →
      Shows fd after (lives.flatten ++ current ++ [event]) := by
    rintro rfl hlife
    refine ⟨lives ++ [current ++ [event]], [], fun life hmem => ?_, .closed, ?_⟩
    · rcases List.mem_append.mp hmem with hold | hnew
      · exact hlives life hold
      · rw [List.mem_singleton.mp hnew]
        exact hlife
    · simp
  cases hbegun with
  | closed =>
      cases event with
      | opened path opened =>
          obtain rfl := Option.some.inj hfd
          obtain rfl := Option.some.inj hnext
          have hnone : ∀ event ∈ ([] : List BackendEvent), event.isPlain = true := by simp
          exact hgoes [.opened path opened] (.opened hnone) rfl
      | openFailed | ioctl | write | close => cases hnext
  | @opened path setup hsetup =>
      cases event with
      | close closed =>
          obtain rfl := Option.some.inj hfd
          exact hends (Option.some.inj hnext).symm (.unmade hsetup)
      | write written data answer =>
          obtain rfl := Option.some.inj hnext
          exact hgoes _ (.opened (plain_append hsetup rfl)) rfl
      | ioctl asked request arg error =>
          obtain rfl := Option.some.inj hfd
          rw [Status.next] at hnext
          split at hnext
          · next hplain =>
            obtain rfl := Option.some.inj hnext
            exact hgoes _ (.opened (plain_append hsetup hplain)) rfl
          · next hplain =>
            split at hnext
            · next hcreate =>
              obtain rfl := Option.some.inj hnext
              subst hcreate
              have hgranted : error = .none := by
                simpa [BackendEvent.isPlain, uiDevCreate, uiDevDestroy] using hplain
              subst hgranted
              have hnone : ∀ event ∈ ([] : List BackendEvent), event.isPlain = true := by simp
              exact hgoes _ (.created hsetup hnone) rfl
            · cases hnext
      | opened | openFailed => cases hnext
  | @created path setup uses arg hsetup huses =>
      have hlonger : ∀ event, event.isPlain = true → Begun fd .created
          (.opened path fd :: setup ++ .ioctl fd uiDevCreate arg .none :: uses ++ [event]) := by
        intro event hplain
        rw [List.append_assoc, List.cons_append]
        exact .created hsetup (plain_append huses hplain)
      cases event with
      | write written data answer =>
          obtain rfl := Option.some.inj hnext
          exact hgoes _ (hlonger _ rfl) rfl
      | ioctl asked request arg' error =>
          obtain rfl := Option.some.inj hfd
          rw [Status.next] at hnext
          split at hnext
          · next hplain =>
            obtain rfl := Option.some.inj hnext
            exact hgoes _ (hlonger _ hplain) rfl
          · split at hnext
            · next hdestroy =>
              obtain rfl := Option.some.inj hnext
              subst hdestroy
              exact hgoes _ (.destroyed hsetup huses) rfl
            · cases hnext
      | opened | openFailed | close => cases hnext
  | @destroyed path setup uses arg arg' error hsetup huses =>
      cases event with
      | close closed =>
          obtain rfl := Option.some.inj hfd
          refine hends (Option.some.inj hnext).symm ?_
          rw [List.append_assoc]
          exact .made hsetup huses
      | opened | openFailed | ioctl | write => cases hnext

/-- What the life cycle accepts is made of lives. -/
theorem shows_of_follow {fd : Nat} {status : Status} {events : List BackendEvent}
    (hfd : ∀ event ∈ events, event.fd = some fd)
    (hfollow : follow Status.next .closed events = some status) : Shows fd status events := by
  induction events using List.reverseRecOn generalizing status with
  | nil =>
      obtain rfl := Option.some.inj hfollow
      exact ⟨[], [], by simp, .closed, rfl⟩
  | append_singleton earlier event ih =>
      rw [follow_append] at hfollow
      cases hearlier : follow Status.next .closed earlier with
      | none =>
          rw [hearlier] at hfollow
          cases hfollow
      | some before =>
          rw [hearlier] at hfollow
          have hshows := ih (fun found hmem => hfd found (List.mem_append_left _ hmem)) hearlier
          exact hshows.next (hfd event (by simp)) ((follow_singleton event).symm.trans hfollow)

end Uinput

end Daemon

end Wiiland
