import Mathlib.Data.Set.Card
import PulseSequencer.Session.Listeners

/-!
# Delivery of notices

Sessions are opened and closed, switches are announced, and notices are read out of the inboxes.
What a session has read, and then what waits in its inbox, is what was announced since it was
opened, in order, without its own switches.

* `Traffic`: what happens to the listeners; `Traffic.heard`, `Traffic.told`, what that means for one
  session.
* `Listeners.Moves`, `Listeners.Leads`: a step of the listeners, and a history of them.
* `Listeners.Consistent`: exactly the registered listeners have an open inbox, so that none is
  forgotten when a notice is published.
* `Listeners.Delivers`, `Listeners.Leads.delivers`: what every history brings to every session.
-/

namespace PulseSequencer

/-- What happens to the listeners. -/
inductive Traffic where
  | nothing
  | opened (id : SessionId)
  | closed (id : SessionId)
  | announced (origin : Option SessionId) (notice : Notice)
  | read (id : SessionId) (notices : List Notice)
  deriving DecidableEq

namespace Traffic

/-- The notices that a session reads. -/
def heard (id : SessionId) : Traffic → List Notice
  | read reader notices => if reader = id then notices else []
  | _ => []

/-- The notices that a session is to be told of: those of others. -/
def told (id : SessionId) : Traffic → List Notice
  | announced origin notice => if origin = some id then [] else [notice]
  | _ => []

/-- The session that is opened, if one is. -/
def opening : Traffic → Option SessionId
  | opened id => some id
  | _ => none

/-- A session that was opened and not closed afterwards. -/
def Live (history : List Traffic) (id : SessionId) : Prop :=
  ∃ before since, history = before ++ .opened id :: since ∧ .closed id ∉ since

variable {history : List Traffic} {t : Traffic} {id : SessionId}

/-- The last step of a history is the one at which it is split, or comes after it. -/
lemma concat_eq_split {before since : List Traffic} {x : Traffic}
    (h : history ++ [t] = before ++ x :: since) :
    (since = [] ∧ t = x ∧ history = before) ∨
      ∃ earlier, since = earlier ++ [t] ∧ history = before ++ x :: earlier := by
  rcases List.eq_nil_or_concat since with rfl | ⟨earlier, last, rfl⟩
  · obtain ⟨rfl, hlast⟩ := List.append_inj' h rfl
    exact .inl ⟨rfl, List.singleton_inj.mp hlast, rfl⟩
  · rw [List.concat_eq_append, ← List.cons_append, ← List.append_assoc] at h
    obtain ⟨rfl, hlast⟩ := List.append_inj' h rfl
    exact .inr ⟨earlier, by rw [List.concat_eq_append, List.singleton_inj.mp hlast], rfl⟩

/-- A session is live after one more event if that opens it, or if it was live and is not closed. -/
lemma live_concat :
    Live (history ++ [t]) id ↔ t = .opened id ∨ Live history id ∧ t ≠ .closed id := by
  constructor
  · rintro ⟨before, since, hsplit, hopen⟩
    rcases concat_eq_split hsplit with ⟨rfl, ht, -⟩ | ⟨earlier, rfl, hhistory⟩
    · exact .inl ht
    · rw [List.mem_append, not_or, List.mem_singleton] at hopen
      exact .inr ⟨⟨before, earlier, hhistory, hopen.1⟩, Ne.symm hopen.2⟩
  · rintro (rfl | ⟨⟨before, since, rfl, hopen⟩, ht⟩)
    · exact ⟨history, [], rfl, List.not_mem_nil⟩
    · refine ⟨before, since ++ [t], by simp, ?_⟩
      simpa [hopen] using Ne.symm ht

/-- The sessions that are opened in a longer history. -/
lemma openings_concat : (history ++ [t]).filterMap opening =
    history.filterMap opening ++ t.opening.toList := by
  rw [List.filterMap_append]
  cases t <;> rfl

end Traffic

namespace Listeners

open Traffic

/-- A step of the listeners. -/
inductive Moves : Listeners → Traffic → Listeners → Prop where
  | nothing (l : Listeners) : Moves l .nothing l
  | opened (l : Listeners) : Moves l (.opened l.next) l.register.2
  | closed (l : Listeners) (id : SessionId) : Moves l (.closed id) ((l.unregister id).close id)
  | announced (l : Listeners) (origin : Option SessionId) (notice : Notice) :
      Moves l (.announced origin notice) (l.publish origin notice)
  | read (l : Listeners) (id : SessionId) : Moves l (.read id (l.take id).1.toList) (l.take id).2
  | readAll (l : Listeners) (id : SessionId) : Moves l (.read id (l.takeAll id).1) (l.takeAll id).2

/-- A history of the listeners. -/
inductive Leads (l : Listeners) : List Traffic → Listeners → Prop where
  | nil : Leads l [] l
  | concat {history : List Traffic} {t : Traffic} {l' l'' : Listeners} (before : Leads l history l')
      (last : Moves l' t l'') : Leads l (history ++ [t]) l''

/-- The registered listeners are those with an open inbox, and none is registered twice. -/
structure Consistent (l : Listeners) : Prop where
  open_iff : ∀ id, (l.inbox id).isSome = true ↔ id ∈ l.registered
  lt_next : ∀ id ∈ l.registered, id < l.next
  nodup : l.registered.Nodup

/-- Nobody listens in the beginning. -/
lemma consistent_empty : empty.Consistent := by
  constructor
  · simp [empty]
  · simp [empty]
  · exact List.nodup_nil

variable {l l' : Listeners} {t : Traffic} {id : SessionId}

/-! ## One step -/

/-- Every notice can be delivered, so that no listener is forgotten. -/
lemma Consistent.registered_publish (hl : l.Consistent) (origin : Option SessionId)
    (notice : Notice) : (l.publish origin notice).registered = l.registered := by
  refine List.filter_eq_self.mpr fun id hid => decide_eq_true (.inr ?_)
  exact (hl.open_iff id).mpr hid

/-- Notices are taken out of an inbox, from its front, and nothing else is done. -/
structure Reading (l : Listeners) (id : SessionId) (notices : List Notice) (l' : Listeners) :
    Prop where
  next : l'.next = l.next
  registered : l'.registered = l.registered
  isSome : ∀ other, (l'.inbox other).isSome = (l.inbox other).isSome
  others : ∀ other ≠ id, l'.waiting other = l.waiting other
  front : notices ++ l'.waiting id = l.waiting id

/-- To read nothing takes nothing. -/
lemma reading_nothing (l : Listeners) (id : SessionId) : l.Reading id [] l :=
  ⟨rfl, rfl, fun _ => rfl, fun _ _ => rfl, rfl⟩

/-- What was in an inbox is what is taken out of it and what is left in it. -/
lemma reading_split {notices rest : List Notice} (h : l.inbox id = some (notices ++ rest)) :
    l.Reading id notices { l with inbox := setAt l.inbox id (some rest) } := by
  refine ⟨rfl, rfl, fun other => ?_, fun other hother => ?_, ?_⟩
  · by_cases hother : other = id
    · simp [hother, h]
    · simp [hother]
  · simp [waiting, hother]
  · simp [waiting, h]

/-- To take a notice reads the first one that waits. -/
lemma reading_take (l : Listeners) (id : SessionId) :
    l.Reading id (l.take id).1.toList (l.take id).2 := by
  unfold take
  split
  case h_1 n rest hinbox =>
    have hfirst : l.inbox id = some ([n] ++ rest) := hinbox
    exact reading_split hfirst
  case h_2 => exact reading_nothing l id

/-- To take all notices reads all that wait. -/
lemma reading_takeAll (l : Listeners) (id : SessionId) :
    l.Reading id (l.takeAll id).1 (l.takeAll id).2 := by
  unfold takeAll
  split
  case h_1 notices hinbox =>
    exact reading_split (hinbox.trans (congrArg some (List.append_nil notices).symm))
  case h_2 => exact reading_nothing l id

/-- Reading keeps the listeners consistent. -/
lemma Reading.consistent {notices : List Notice} (h : l.Reading id notices l')
    (hl : l.Consistent) : l'.Consistent := by
  constructor
  case open_iff => simpa only [h.registered, h.isSome] using hl.open_iff
  case lt_next => simpa only [h.registered, h.next] using hl.lt_next
  case nodup => simpa only [h.registered] using hl.nodup

/-- What is read and what waits after it is what waited before. -/
lemma Reading.waiting {notices : List Notice} {reader : SessionId}
    (h : l.Reading reader notices l') (id : SessionId) :
    (Traffic.read reader notices).heard id ++ l'.waiting id = l.waiting id := by
  by_cases hid : reader = id
  · rw [heard, if_pos hid, ← hid]
    exact h.front
  · rw [heard, if_neg hid]
    exact h.others id (Ne.symm hid)

/-- What a step does to the register. -/
lemma Moves.mem_registered (h : Moves l t l') (hl : l.Consistent) :
    id ∈ l'.registered ↔ t = .opened id ∨ id ∈ l.registered ∧ t ≠ .closed id := by
  cases h with
  | nothing => simp
  | opened => simp [register, eq_comm, or_comm]
  | closed other =>
    simp only [close, unregister, List.mem_filter, decide_eq_true_eq, reduceCtorEq, false_or, ne_eq,
      Traffic.closed.injEq]
    exact and_congr_right fun _ => not_congr eq_comm
  | announced origin notice =>
    rw [hl.registered_publish]
    simp
  | read reader =>
    rw [(reading_take l reader).registered]
    simp
  | readAll reader =>
    rw [(reading_takeAll l reader).registered]
    simp

/-- Identities are never used again. -/
lemma Moves.next_le (h : Moves l t l') : l.next ≤ l'.next := by
  cases h with
  | opened => exact Nat.le_succ _
  | read reader => exact (reading_take l reader).next.ge
  | readAll reader => exact (reading_takeAll l reader).next.ge
  | _ => exact le_rfl

/-- Every step keeps the listeners consistent. -/
lemma Moves.consistent (h : Moves l t l') (hl : l.Consistent) : l'.Consistent := by
  cases h with
  | nothing => exact hl
  | opened =>
    constructor
    case open_iff =>
      intro id
      by_cases hid : id = l.next
      · simp [register, hid]
      · simpa [register, hid] using hl.open_iff id
    case lt_next =>
      intro id hid
      rcases List.mem_append.mp hid with hid | hid
      · exact Nat.lt_succ_of_lt (hl.lt_next id hid)
      · rw [List.mem_singleton.mp hid]
        exact Nat.lt_succ_self _
    case nodup =>
      -- the new identity is greater than all that are registered
      refine List.nodup_append.mpr ⟨hl.nodup, List.nodup_singleton _, fun id hid other hother => ?_⟩
      rw [List.mem_singleton.mp hother]
      exact (hl.lt_next id hid).ne
  | closed id =>
    constructor
    case open_iff =>
      intro other
      by_cases hother : other = id
      · simp [close, unregister, hother]
      · simpa [close, unregister, hother] using hl.open_iff other
    case lt_next => exact fun other hother => hl.lt_next other (List.mem_filter.mp hother).1
    case nodup => exact hl.nodup.filter _
  | announced origin notice =>
    constructor
    case open_iff =>
      intro id
      rw [hl.registered_publish, ← hl.open_iff id]
      simp [publish]
    case lt_next =>
      rw [hl.registered_publish]
      exact hl.lt_next
    case nodup => exact hl.nodup.filter _
  | read id => exact (reading_take l id).consistent hl
  | readAll id => exact (reading_takeAll l id).consistent hl

/-- What waits for a listener grows by what it is told of, and shrinks by what it reads. -/
lemma Moves.waiting (h : Moves l t l') (hl : l.Consistent) (hid : id ∈ l.registered)
    (ht : t ≠ .closed id) : t.heard id ++ l'.waiting id = l.waiting id ++ t.told id := by
  obtain ⟨notices, hinbox⟩ := Option.isSome_iff_exists.mp ((hl.open_iff id).mpr hid)
  have hwaiting : l.waiting id = notices := by rw [Listeners.waiting, hinbox]; rfl
  cases h with
  | nothing => simp [heard, told]
  | opened =>
    have hne : id ≠ l.next := (hl.lt_next id hid).ne
    simp [heard, told, Listeners.waiting, register, hne]
  | closed other =>
    have hne : id ≠ other := fun heq => ht (heq ▸ rfl)
    simp [heard, told, Listeners.waiting, close, unregister, hne]
  | announced origin notice =>
    rw [hwaiting]
    by_cases horigin : origin = some id
    · simp [heard, told, Listeners.waiting, publish, hinbox, horigin]
    · simp [heard, told, Listeners.waiting, publish, hinbox, horigin, hid, Ne.symm horigin]
  | read reader => exact ((reading_take l reader).waiting id).trans (List.append_nil _).symm
  | readAll reader => exact ((reading_takeAll l reader).waiting id).trans (List.append_nil _).symm

/-! ## Histories -/

/-- What a history from no listeners has brought. -/
structure Delivers (history : List Traffic) (l : Listeners) : Prop where
  consistent : l.Consistent
  registered : ∀ id, id ∈ l.registered ↔ Live history id
  lt_next : ∀ id ∈ history.filterMap opening, id < l.next
  unique : (history.filterMap opening).Nodup
  /-- What a session has heard, and then what waits for it, is what it was to be told of. -/
  delivered : ∀ before id since, history = before ++ .opened id :: since → .closed id ∉ since →
    since.flatMap (·.heard id) ++ l.waiting id = since.flatMap (·.told id)

/-- Every history from no listeners brings to each session what it is to be told of. -/
theorem Leads.delivers {history : List Traffic} (h : Leads .empty history l) :
    Delivers history l := by
  induction h with
  | nil =>
    constructor
    case consistent => exact consistent_empty
    case registered => simp [Live, empty]
    case lt_next => simp
    case unique => exact List.nodup_nil
    case delivered => simp
  | @concat history t l l' before last ih =>
    -- a step opens no other session than the next one
    have hopening : ∀ id ∈ t.opening.toList, id = l.next ∧ l'.next = l.next + 1 := by
      intro id hid
      cases last with
      | opened => exact ⟨List.mem_singleton.mp hid, rfl⟩
      | _ => exact absurd hid List.not_mem_nil
    constructor
    case consistent => exact last.consistent ih.consistent
    case registered =>
      intro id
      rw [last.mem_registered ih.consistent, live_concat, ih.registered]
    case lt_next =>
      intro id hid
      rw [openings_concat, List.mem_append] at hid
      rcases hid with hid | hid
      · exact (ih.lt_next id hid).trans_le last.next_le
      · obtain ⟨rfl, hnext⟩ := hopening id hid
        exact hnext ▸ Nat.lt_succ_self _
    case unique =>
      rw [openings_concat, List.nodup_append]
      refine ⟨ih.unique, ?_, fun id hid new hnew => ?_⟩
      · cases t.opening with
        | none => exact List.nodup_nil
        | some id => exact List.nodup_singleton id
      · rw [(hopening new hnew).1]
        exact (ih.lt_next id hid).ne
    case delivered =>
      intro earlier id since hsplit hopen
      rcases concat_eq_split hsplit with ⟨rfl, rfl, -⟩ | ⟨since, rfl, rfl⟩
      · -- the session has just been opened
        cases last
        simp [Listeners.waiting, register]
      · rw [List.mem_append, not_or, List.mem_singleton] at hopen
        have hlive : id ∈ l.registered := (ih.registered id).mpr ⟨earlier, since, rfl, hopen.1⟩
        have hstep := last.waiting ih.consistent hlive (Ne.symm hopen.2)
        calc (since ++ [t]).flatMap (·.heard id) ++ l'.waiting id
            = since.flatMap (·.heard id) ++ (t.heard id ++ l'.waiting id) := by simp
          _ = (since.flatMap (·.heard id) ++ l.waiting id) ++ t.told id := by
            rw [hstep, List.append_assoc]
          _ = (since ++ [t]).flatMap (·.told id) := by
            rw [ih.delivered earlier id since rfl hopen.1]
            simp

/-- As many listeners are registered as sessions are live. -/
lemma Delivers.length_registered {history : List Traffic} (h : Delivers history l) :
    l.registered.length = {id | Live history id}.ncard := by
  have hset : {id | Live history id} = (l.registered.toFinset : Set SessionId) := by
    ext id
    simp [h.registered]
  rw [hset, Set.ncard_coe_finset, List.toFinset_card_of_nodup h.consistent.nodup]

end Listeners

end PulseSequencer
