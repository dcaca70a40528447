import Mathlib.Data.List.Induction
import ModelOperator.Proofs.Controller.ModelExit
import ModelOperator.Proofs.Controller.ModelRun
import ModelOperator.Proofs.Text.Quoted

/-!
# Pulls are announced before they happen

    A pass pulls a model only if the stored `Ready` condition announces just that, and the
    pass that announces it stores the condition and ends.  So behind every pull of a run
    there is an earlier pass that announced it, and what that pass stored stands until the
    pull (`pull_announced`).

    A turn does one of three things to the stored condition (`ModelTurn.ready_after`): it
    leaves it alone, it announces a pull, or it stores one that announces nothing.  By
    induction on the run, an announcement that stands at its end and did not stand at its
    start was made by the last turn that changed the condition (`announced_by`).  The
    message of an announcement quotes the id of the model, and since no two ids have one
    quotation it is known which model was announced. -/

namespace ModelOperator

/-! ## Announcements -/

namespace Model

/-- Different models are announced by different texts. -/
theorem pullingNote_injective : Function.Injective pullingNote := by
  intro a b h
  have hquoted : "Pulling " ++ quoted a = "Pulling " ++ quoted b :=
    (String.append_left_inj " model").mp h
  exact quoted_injective ((String.append_right_inj "Pulling ").mp hquoted)

theorem pullingNote_ne_empty (id : String) : pullingNote id ≠ "" := by
  intro h
  have hwords : "Pulling " ++ quoted id ++ " model" = "" := h
  exact absurd (String.append_eq_empty_iff.mp hwords).2 (by decide)

end Model

/-- The condition that a pass stores to announce the pull of a model. -/
def pullAnnouncement (now : Instant) (generation : Int) (id : String) : Condition :=
  ⟨Condition.readyType, .fails, "Creating", s!"Pulling {quoted id} model", now, generation⟩

/-- A condition announces the pull of a model, at any time and for any generation. -/
def Condition.AnnouncesPull (c : Condition) (id : String) : Prop :=
  c.status = .fails ∧ c.reason = "Creating" ∧ c.message = Model.pullingNote id

/-- An announcement is of one model. -/
theorem Condition.AnnouncesPull.unique {c : Condition} {a b : String} (ha : c.AnnouncesPull a)
    (hb : c.AnnouncesPull b) : a = b :=
  Model.pullingNote_injective (ha.2.2.symm.trans hb.2.2)

theorem announcesPull_pullAnnouncement (now : Instant) (generation : Int) (id : String) :
    (pullAnnouncement now generation id).AnnouncesPull id := ⟨rfl, rfl, rfl⟩

/-- The condition about readiness in a stored status. -/
def storedReady (stored : Option ModelStatus) : Option Condition :=
  stored.bind fun s => s.conditions.get? Condition.readyType

/-- The stored status announces the pull of a model. -/
def Announced (stored : Option ModelStatus) (id : String) : Prop :=
  ∃ c, storedReady stored = some c ∧ c.AnnouncesPull id

namespace Model

variable {now : Instant} {w : ModelWorld} {m : Model}

/-- The Ready condition as it is stored is the one among the conditions of the status. -/
theorem storedReady_status (m : Model) :
    storedReady m.status = m.statusOrEmpty.conditions.get? Condition.readyType := by
  rcases m with ⟨metadata, spec, status⟩
  cases status <;> rfl

/-- A model reads its Ready condition out of the status it has. -/
theorem condition?_ready (m : Model) :
    m.condition? Condition.readyType = storedReady m.status := by
  rcases m with ⟨metadata, spec, status⟩
  cases status <;> rfl

/-- The pass finds its own announcement exactly if the status carries one of the same model. -/
theorem hasCondition_pulling_iff (now : Instant) (m : Model) (id : String) :
    m.hasCondition (pullingCondition now id) = true ↔ Announced m.status id := by
  rw [Announced, ← condition?_ready]
  exact conditioned.hasCondition_iff m (pullingCondition now id)

/-! ## What a pass leaves of an announcement -/

/-- A condition that announces no pull takes the place of one that does. -/
theorem not_announced_setConditions (m : Model) {x : Condition}
    (hx : x.type = Condition.readyType) (hquiet : ∀ id, ¬ x.AnnouncesPull id) (id : String) :
    ¬ Announced (m.setConditions [x]).status id := by
  rintro ⟨c, hc, hstatus, hreason, hmessage⟩
  obtain ⟨c', hc', hsame⟩ := m.statusOrEmpty.conditions.get?_set_self
    { x with generation := m.metadata.generation }
  have hfound : storedReady (m.setConditions [x]).status = some c' :=
    (congrArg _ hx.symm).trans hc'
  cases hc.symm.trans hfound
  obtain ⟨-, hstatus', hreason', hmessage'⟩ := (Condition.equivalent_iff c _).mp hsame
  exact hquiet id ⟨hstatus'.symm.trans hstatus, hreason'.symm.trans hreason,
    hmessage'.symm.trans hmessage⟩

theorem unavailable_quiet (now : Instant) (message id : String) :
    ¬ (Condition.unavailable now message).AnnouncesPull id :=
  fun h => absurd (show "Unavailable" = "Creating" from h.2.1) (by decide)

theorem creating_quiet (now : Instant) (id : String) :
    ¬ (Condition.creating now "").AnnouncesPull id :=
  fun h => pullingNote_ne_empty id h.2.2.symm

theorem available_quiet (now : Instant) (id : String) :
    ¬ (Condition.available now).AnnouncesPull id :=
  fun h => nomatch h.1

/-- **What a body leaves of an announcement.**  It keeps the condition about readiness, or
    announces the pull of the model and ends at once, or announces nothing any more. -/
theorem Exit.ready {calls : List ModelCall} {left : Model} {outcome : Except ModelError Action}
    (h : Exit now w m calls left outcome) :
    left.status = m.status ∨
      (left = m.setConditions [pullingCondition now m.spec.model] ∧
        m.hasCondition (pullingCondition now m.spec.model) = false ∧
        calls.any ModelCall.isPull = false ∧ outcome = .ok .immediately) ∨
      ∀ id, ¬ Announced left.status id := by
  cases h with
  | unnamespaced | unrendered | statefulSetRefused | serviceRefused | unread | unlisted
  | pullFailed => exact Or.inl rfl
  | announced hopens hrolled hlist habsent hnew => exact Or.inr (Or.inl ⟨rfl, hnew, rfl, rfl⟩)
  | absent =>
      exact Or.inr (Or.inr (not_announced_setConditions m rfl (creating_quiet now)))
  | unfollowed | rolling | pullUnfinished | notShown =>
      exact Or.inr (Or.inr (not_announced_setConditions m rfl (unavailable_quiet now _)))
  | shown =>
      exact Or.inr (Or.inr (not_announced_setConditions _ rfl (available_quiet now)))

/-- **A body that pulls.**  It pulls once, the model that it is about, and that was
    announced; and when the pull ends with another word than success, nothing is announced
    any more. -/
theorem Exit.of_pull {calls : List ModelCall} {left : Model} {outcome : Except ModelError Action}
    (h : Exit now w m calls left outcome) (hpulls : calls.any ModelCall.isPull = true) :
    calls.filter ModelCall.isPull = [.pull ⟨m.spec.model, false, true⟩] ∧
      Announced m.status m.spec.model ∧
      ∀ last, w.pull = .ok last → last.isSuccess = false → ∀ id, ¬ Announced left.status id := by
  cases h with
  | unnamespaced | unrendered | statefulSetRefused | serviceRefused | unread | absent
  | unfollowed | rolling | unlisted | announced => cases hpulls
  | pullFailed hopens hrolled hlist habsent hannounced hpull =>
      refine ⟨rfl, (hasCondition_pulling_iff now m _).mp hannounced, ?_⟩
      intro last hlast
      cases hpull.symm.trans hlast
  | pullUnfinished hopens hrolled hlist habsent hannounced hpull hunfinished =>
      refine ⟨rfl, (hasCondition_pulling_iff now m _).mp hannounced, ?_⟩
      intro _ _ _
      exact not_announced_setConditions m rfl (unavailable_quiet now _)
  | notShown hopens hrolled hhas | shown hopens hrolled hhas =>
      cases hhas with
      | listed => cases hpulls
      | pulled hlist habsent hannounced hpull hsuccess =>
          refine ⟨rfl, (hasCondition_pulling_iff now m _).mp hannounced, ?_⟩
          intro last hlast hunfinished
          cases hpull.symm.trans hlast
          cases hsuccess.symm.trans hunfinished

end Model

/-! ## One turn -/

namespace ModelTurn

/-- **The announcement of a pull.**  The turn is about this model and pulls nothing; it asks
    to be run again at once, and has stored the announcement. -/
structure Announces (t : ModelTurn) (stored : Option ModelStatus) (id : String) : Prop where
  about : t.spec.model = id
  quiet : (t.report stored).pulls = false
  again : (t.report stored).result = .ok .immediately
  stores : ∃ s, (t.report stored).written = some s ∧
    s.conditions.get? Condition.readyType =
      some (pullAnnouncement t.now t.metadata.generation id)

/-- The turn pulls and stores its status, but the last word of the pull is not success. -/
structure PullsInVain (t : ModelTurn) (stored : Option ModelStatus) : Prop where
  pulls : (t.report stored).pulls = true
  unfinished : ∃ last, t.world.pull = .ok last ∧ last.isSuccess = false
  stores : t.world.patchStatus = .ok ()

variable {t : ModelTurn} {stored : Option ModelStatus}

/-- A status write that fails leaves the status as it was stored. -/
theorem after_of_refused {e : ClusterError} (h : t.world.patchStatus = .error e) :
    t.after stored = stored := by
  show (t.report stored).written.or stored = stored
  rw [show (t.report stored).written = none from Model.controller.finish_unwritten _ _ h]
  rfl

/-- A status write that succeeds stores what the report has written. -/
theorem after_of_written {s : ModelStatus} (h : (t.report stored).written = some s) :
    t.after stored = some s := by
  rw [after, h]
  rfl

/-- The body of the turn's pass, played. -/
def played (t : ModelTurn) (stored : Option ModelStatus) :
    Except ModelError Action × Progress Model ModelCall :=
  (Model.body t.now t.world (t.model stored)).resume { resource := t.model stored }

/-- A turn ends in one of the ways a pass can end. -/
theorem exit_played (t : ModelTurn) (stored : Option ModelStatus) :
    Model.Exit t.now t.world (t.model stored) (t.played stored).2.calls
      (t.played stored).2.resource (t.played stored).1 :=
  Model.exit_body t.now t.world (t.model stored)

/-- A turn pulls when its body does: the write of the status is no pull. -/
theorem filter_isPull_report (t : ModelTurn) (stored : Option ModelStatus) :
    (t.report stored).calls.filter ModelCall.isPull =
      (t.played stored).2.calls.filter ModelCall.isPull := by
  rw [report, Model.reconcile_calls, List.filter_append]
  exact List.append_nil _

/-- A report counts the pulls of the pass it is about. -/
theorem pulls_report (t : ModelTurn) (stored : Option ModelStatus) :
    (t.report stored).pulls = (t.played stored).2.calls.any ModelCall.isPull := by
  rw [ModelReport.pulls, report, Model.reconcile_calls, List.any_append]
  exact Bool.or_false _

/-- A turn whose status is stored leaves the condition about readiness of its body. -/
theorem storedReady_after (hwrite : t.world.patchStatus = .ok ()) :
    storedReady (t.after stored) = storedReady (t.played stored).2.resource.status := by
  rw [after_of_written (Model.controller.finish_written _ _ hwrite), Model.storedReady_status]
  exact Model.controller.get?_stamped _ _ _ Condition.ready_ne_synced

/-- What its body announces is what a turn announces that stores its status. -/
theorem announced_after_iff (hwrite : t.world.patchStatus = .ok ()) (id : String) :
    Announced (t.after stored) id ↔ Announced (t.played stored).2.resource.status id := by
  rw [Announced, Announced, storedReady_after hwrite]

/-- **One turn.**  It leaves the stored condition alone, announces a pull, or stores a
    condition that announces nothing. -/
theorem ready_after (t : ModelTurn) (stored : Option ModelStatus) :
    storedReady (t.after stored) = storedReady stored ∨ t.Announces stored t.spec.model ∨
      ∀ id, ¬ Announced (t.after stored) id := by
  cases hwrite : t.world.patchStatus with
  | error e => exact Or.inl (congrArg storedReady (after_of_refused hwrite))
  | ok _ =>
      rcases (t.exit_played stored).ready with hkept | ⟨hleft, hnew, hquiet, hout⟩ | hnone
      · refine Or.inl ((storedReady_after hwrite).trans ?_)
        rw [hkept]
        rfl
      · refine Or.inr (Or.inl ⟨rfl, (pulls_report t stored).trans hquiet, ?_, ?_⟩)
        · show Model.conclude (t.played stored).1 t.world.patchStatus = _
          rw [hout, hwrite]
          rfl
        · refine ⟨_, Model.controller.finish_written _ _ hwrite, ?_⟩
          refine (Model.controller.get?_stamped _ _ _ Condition.ready_ne_synced).trans ?_
          show (t.played stored).2.resource.statusOrEmpty.conditions.get? _ = _
          rw [hleft]
          -- nothing like it was stored, so the condition is stored as it is
          have hhas : (t.model stored).statusOrEmpty.conditions.has
              (pullAnnouncement t.now t.metadata.generation t.spec.model) = false :=
            (Model.conditioned.hasCondition_eq _ _).symm.trans hnew
          exact ConditionSet.get?_set_of_not_has hhas
      · exact Or.inr (Or.inr fun id => mt (announced_after_iff hwrite id).mp (hnone id))

/-- What an announcing turn has stored. -/
theorem Announces.storedReady_after {id : String} (h : t.Announces stored id) :
    storedReady (t.after stored) =
      some (pullAnnouncement t.now t.metadata.generation id) := by
  obtain ⟨s, hwritten, hready⟩ := h.stores
  rw [after_of_written hwritten]
  exact hready

/-- After a pull in vain nothing is announced. -/
theorem PullsInVain.not_announced (h : t.PullsInVain stored) (id : String) :
    ¬ Announced (t.after stored) id := by
  obtain ⟨last, hlast, hunfinished⟩ := h.unfinished
  have hpulls := (pulls_report t stored).symm.trans h.pulls
  rw [announced_after_iff h.stores]
  exact ((t.exit_played stored).of_pull hpulls).2.2 last hlast hunfinished id

/-! ## Runs -/

/-- The status that is stored after a run. -/
def storedAfter (stored : Option ModelStatus) (turns : List ModelTurn) : Option ModelStatus :=
  turns.foldl (fun s t => t.after s) stored

/-- Runs one after the other store what one run of all their turns does. -/
theorem storedAfter_append (stored : Option ModelStatus) (first last : List ModelTurn) :
    storedAfter stored (first ++ last) = storedAfter (storedAfter stored first) last :=
  List.foldl_append

theorem storedAfter_cons (stored : Option ModelStatus) (t : ModelTurn) (rest : List ModelTurn) :
    storedAfter stored (t :: rest) = storedAfter (t.after stored) rest := rfl

/-- **Who announced it.**  What is announced after a run and was not before it was announced
    by a turn of the run, and what that turn stored still stands. -/
theorem announced_by {id : String} (turns : List ModelTurn) (hnot : ¬ Announced stored id)
    (h : Announced (storedAfter stored turns) id) :
    ∃ earlier a between, turns = earlier ++ a :: between ∧
      a.Announces (storedAfter stored earlier) id ∧
      storedReady (storedAfter stored turns) =
        some (pullAnnouncement a.now a.metadata.generation id) := by
  induction turns using List.reverseRecOn with
  | nil => exact absurd h hnot
  | append_singleton turns t ih =>
      have hlast : storedAfter stored (turns ++ [t]) = t.after (storedAfter stored turns) :=
        storedAfter_append stored turns [t]
      rw [hlast] at h ⊢
      rcases t.ready_after (storedAfter stored turns) with hkept | hannounces | hnone
      · -- the announcement stood before the last turn, so an earlier one made it
        have hbefore : Announced (storedAfter stored turns) id := by
          rw [Announced, ← hkept]
          exact h
        obtain ⟨earlier, a, between, rfl, ha, hready⟩ := ih hbefore
        refine ⟨earlier, a, between ++ [t], ?_, ha, hkept.trans hready⟩
        rw [List.append_assoc, List.cons_append]
      · -- the last turn made it, and it is about the model that was announced
        obtain ⟨c, hc, hannounced⟩ := h
        have hstored := hannounces.storedReady_after
        cases hc.symm.trans hstored
        have hid := (announcesPull_pullAnnouncement _ _ _).unique hannounced
        rw [hid] at hannounces hstored
        exact ⟨turns, t, [], rfl, hannounces, hstored⟩
      · exact absurd h (hnone id)

end ModelTurn

open ModelTurn

/-- Where there are no conditions, nothing is announced. -/
theorem not_announced_of_no_conditions {stored : Option ModelStatus}
    (h : ∀ s, stored = some s → s.conditions = {}) (id : String) : ¬ Announced stored id := by
  rintro ⟨c, hc, -⟩
  cases stored with
  | none => cases hc
  | some s =>
      have hnone : storedReady (some s) = none := by
        show s.conditions.get? Condition.readyType = none
        rw [h s rfl]
        rfl
      cases hnone.symm.trans hc

/-- **No pull without an announcement.**  In a run that starts without conditions, a turn
    that pulls does so once and pulls the model that its specification asks for.  An earlier
    turn announced the pull of that model, and its announcement is the condition that the
    pulling turn finds.  Moreover, between a pull in vain and a later pull there is always
    such an announcement. -/
theorem pull_announced {stored : Option ModelStatus}
    (hstart : ∀ s, stored = some s → s.conditions = {}) {before : List ModelTurn} {t : ModelTurn}
    (hpulls : (t.report (storedAfter stored before)).pulls = true) :
    (t.report (storedAfter stored before)).calls.filter ModelCall.isPull =
        [.pull ⟨t.spec.model, false, true⟩] ∧
      (∃ earlier a between, before = earlier ++ a :: between ∧
        a.Announces (storedAfter stored earlier) t.spec.model ∧
        (t.model (storedAfter stored before)).condition? Condition.readyType =
          some (pullAnnouncement a.now a.metadata.generation t.spec.model)) ∧
      ∀ earlier u between, before = earlier ++ u :: between →
        u.PullsInVain (storedAfter stored earlier) →
        ∃ first a last, between = first ++ a :: last ∧
          a.Announces (storedAfter stored (earlier ++ u :: first)) t.spec.model := by
  obtain ⟨hcalls, hannounced, -⟩ := (t.exit_played (storedAfter stored before)).of_pull
    ((pulls_report t _).symm.trans hpulls)
  refine ⟨(filter_isPull_report t _).trans hcalls, ?_, ?_⟩
  · rw [Model.condition?_ready]
    exact announced_by before (not_announced_of_no_conditions hstart _) hannounced
  · rintro earlier u between rfl hvain
    -- after the pull in vain the run starts over, with nothing announced
    rw [storedAfter_append, storedAfter_cons] at hannounced
    obtain ⟨first, a, last, rfl, ha, -⟩ := announced_by between (hvain.not_announced _) hannounced
    refine ⟨first, a, last, rfl, ?_⟩
    rw [storedAfter_append, storedAfter_cons]
    exact ha

/-- A turn over a model whose pull breaks off. -/
def turnBreakingOff (m : Model) : ModelTurn :=
  let t := turnListing m []
  { t with world := { t.world with pull := .ok { status := "pulling manifest" } } }

/-- A run in which the second turn pulls in vain: before the fourth pulls again, the third
    announces it again. -/
theorem pull_announced_again :
    let t := turnBreakingOff (modelAsking "gemma2:2b")
    (t.report (storedAfter none [t, t, t])).pulls = true ∧ t.PullsInVain (storedAfter none [t]) ∧
      ∃ first a last, [t] = first ++ a :: last ∧
        a.Announces (storedAfter none ([t] ++ t :: first)) "gemma2:2b" := by
  intro t
  have hpulls : (t.report (storedAfter none [t, t, t])).pulls = true := by decide +kernel
  have hvain : t.PullsInVain (storedAfter none [t]) := ⟨by decide +kernel, ⟨_, rfl, rfl⟩, rfl⟩
  have hstart : ∀ s : ModelStatus, none = some s → s.conditions = {} := nofun
  exact ⟨hpulls, hvain, (pull_announced hstart hpulls).2.2 [t] t [t] rfl hvain⟩

end ModelOperator
