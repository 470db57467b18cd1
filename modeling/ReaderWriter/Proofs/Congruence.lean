import ReaderWriter.Proofs.Scene

/-!
# Relations that a task keeps when it goes on

Two machines are often compared task by task, the tasks of the one under new numbers.  What a task
does when it goes on is put together from few operations on its machine.  A relation that these keep
is kept by every admission section and every reaction of a program.
-/

namespace ReaderWriter

variable {σ δ ε : Type}

def Event.rename (f : Nat → Nat) : Event ε → Event ε
  | turn task => turn (f task)
  | requested task mode => requested (f task) mode
  | granted task mode => granted (f task) mode
  | released task mode => released (f task) mode
  | misused task mode => misused (f task) mode
  | traced task trace => traced (f task) trace
  | noted task note => noted (f task) note

theorem Event.map_rename_id (events : List (Event ε)) : events.map (Event.rename id) = events := by
  have hsame : (Event.rename id : Event ε → Event ε) = id := by
    funext event
    cases event <;> rfl
  rw [hsame, List.map_id]

namespace Machine

/-- The operations of which the moves of a task are made keep the relation. -/
structure Congruence (f : Nat → Nat) (R : Machine σ δ ε → Machine σ δ ε → Prop) : Prop where
  same_lock : ∀ {m other}, R m other → m.lock = other.lock
  same_shared : ∀ {m other}, R m other → m.shared = other.shared
  with_lock : ∀ {m other} lock, R m other → R { m with lock } { other with lock }
  with_shared : ∀ {m other} shared, R m other → R { m with shared } { other with shared }
  record : ∀ {m other} events, R m other →
    R (m.record (events.map (Event.rename f))) (other.record events)
  notify : ∀ {m other} channel, R m other → R (m.notify channel) (other.notify channel)
  rest : ∀ {m other} task own, R m other → R (m.rest (f task) own) (other.rest task own)
  approach : ∀ {m other} task own call, R m other →
    R (m.approach (f task) own call) (other.approach task own call)
  park : ∀ {m other} task own wait, R m other →
    R (m.park (f task) own wait) (other.park task own wait)

namespace Congruence

variable {f : Nat → Nat} {R : Machine σ δ ε → Machine σ δ ε → Prop} {m other : Machine σ δ ε}

theorem record_map (hR : Congruence f R) {α : Type} (event : Nat → α → Event ε)
    (hevent : ∀ task a, event (f task) a = (event task a).rename f) (task : Nat) (items : List α)
    (hm : R m other) :
    R (m.record (items.map (event (f task)))) (other.record (items.map (event task))) := by
  have hrecord := hR.record (items.map (event task)) hm
  rw [List.map_map] at hrecord
  have hsame : items.map (event (f task)) = items.map (Event.rename f ∘ event task) :=
    List.map_congr_left fun a _ => hevent task a
  rwa [hsame]

theorem foldl_notify (hR : Congruence f R) (channels : List Channel) (hm : R m other) :
    R (channels.foldl Machine.notify m) (channels.foldl Machine.notify other) := by
  induction channels generalizing m other with
  | nil => exact hm
  | cons channel channels ih => exact ih (hR.notify channel hm)

theorem react (hR : Congruence f R) (task : Nat) (r : Reaction σ δ ε) (hm : R m other) :
    R (m.react (f task) r) (other.react task r) := by
  have hnoted := hR.record_map .noted (fun _ _ => rfl) task r.notes (hR.with_shared r.shared hm)
  unfold Machine.react
  cases r.next with
  | none => exact hR.rest task r.own hnoted
  | some call => exact hR.approach task r.own call hnoted

theorem settle (hR : Congruence f R) (p : Program σ δ ε) (task : Nat) (own : σ) (mode : Mode)
    (a : Admission) (hm : R m other) :
    R (m.settle p (f task) own mode a) (other.settle p task own mode a) := by
  have hlooks := hR.record_map .traced (fun _ _ => rfl) task a.traces (hR.with_lock a.lock hm)
  unfold Machine.settle
  cases a.waits with
  | some wait => exact hR.park task own wait hlooks
  | none =>
      have hgranted := hR.record [.granted task mode] hlooks
      have hreacts := hR.react task (p.granted mode own m.shared) hgranted
      rw [hR.same_shared hm] at hreacts ⊢
      exact hreacts

theorem giveBack (hR : Congruence f R) (p : Program σ δ ε) (task : Nat) (own : σ) (mode : Mode)
    (hm : R m other) : R (m.giveBack p (f task) own mode) (other.giveBack p task own mode) := by
  unfold Machine.giveBack
  rw [hR.same_lock hm]
  cases other.lock.release? mode with
  | none =>
      have hmisused := hR.record [.misused task mode] hm
      have hreacts := hR.react task (p.misused mode own m.shared) hmisused
      rw [hR.same_shared hm] at hreacts ⊢
      exact hreacts
  | some r =>
      have htraced := hR.record_map .traced (fun _ _ => rfl) task r.traces (hR.with_lock r.lock hm)
      have hreleased := hR.record [.released task mode] htraced
      have hnotified := hR.foldl_notify r.notified hreleased
      have hreacts := hR.react task (p.released mode own m.shared) hnotified
      simp only [foldl_notify_shared, Machine.record]
      rw [hR.same_shared hm] at hreacts ⊢
      exact hreacts

theorem act (hR : Congruence f R) (p : Program σ δ ε) (task : Nat) (t : Task σ) (hm : R m other) :
    R (m.act p (f task) t) (other.act p task t) := by
  unfold Machine.act
  cases t.point with
  | outside =>
      rw [hR.same_shared hm]
      exact hR.react task _ hm
  | waiting wait =>
      rw [hR.same_lock hm]
      exact hR.settle p task t.own wait.mode _ hm
  | before call =>
      cases call with
      | release mode => exact hR.giveBack p task t.own mode hm
      | acquire mode =>
          rw [hR.same_lock hm]
          exact hR.settle p task t.own mode _ (hR.record [.requested task mode] hm)

end Congruence

end Machine

end ReaderWriter
