import ModelOperator.Controller.Rollout
import ModelOperator.Cluster.Shapes.Workload
import ModelOperator.Proofs.Cluster.Parts

/-!
# Readiness of a stateful set

    A stateful set that counts as ready should have all its pods at the current revision.
    Most of this is checked by every rollout that comes to readiness (`Workload.Settled`):
    the strategy can be followed, the latest specification was seen, and enough pods are
    ready.  That no pod is old (`Workload.Updated`) is checked on two branches, and there
    are two gaps on the one for partitions: a partition that is not set is taken for a
    finished update, where it should count as zero (`Workload.Unpartitioned`), and the count
    of the pods to update is one of 32 bits (`Workload.Overflows`).

    * `Workload.under_normal` says that the parts of a document of a shape are of its shapes;
    * `Workload.counted_of` bounds the counts of a stateful set;
    * `Workload.updateProgress_unset`, `Workload.updateProgress_partition` and
      `Workload.updateProgress_revision` are the branches on which an update is complete;
    * `Workload.isReady_exact` is what readiness tells, and when it is reported. -/

namespace ModelOperator

namespace Workload

/-! ## The counts of a stateful set -/

/-- The shape of the part at a path. -/
def shapeUnder (s : Shape) (path : List String) : Option Shape :=
  path.foldlM (fun s name => s.memberShape? name) s

theorem under_cons (doc : Json) (name : String) (path : List String) :
    under doc (name :: path) = (doc.get? name).bind fun part => under part path := by
  have hnone : ∀ path : List String,
      path.foldl (fun v name => Option.bind v (Json.get? name)) none = none := by
    intro path
    induction path with
    | nil => rfl
    | cons name rest ih => exact ih
  rw [under, List.foldl_cons, Option.bind_some]
  cases doc.get? name with
  | none => exact hnone path
  | some part => rfl

theorem under_concat (doc : Json) (path : List String) (name : String) :
    under doc (path ++ [name]) = (under doc path).bind (Json.get? name) := by
  rw [under, List.foldl_append]
  rfl

/-- The part of a normal form at a path is one of the shape there. -/
theorem under_normal {s leaf : Shape} {path : List String} {doc part : Json}
    (hdistinct : s.distinct = true) (h : s.normalize doc = .ok doc)
    (hleaf : shapeUnder s path = some leaf) (hpart : under doc path = some part) :
    leaf.normalize part = .ok part := by
  induction path generalizing s doc with
  | nil =>
      cases hleaf
      cases hpart
      exact h
  | cons name path ih =>
      rw [under_cons, Option.bind_eq_some_iff] at hpart
      obtain ⟨member, hmember, hpart⟩ := hpart
      rw [shapeUnder, List.foldlM_cons] at hleaf
      obtain ⟨shape, hshape, hleaf⟩ := Option.bind_eq_some_iff.mp hleaf
      obtain ⟨hshapeDistinct, hnormal⟩ := Shape.normalize_member hdistinct h hshape hmember
      exact ih hshapeDistinct hnormal hleaf hpart

/-- Whether a count is one of 32 bits. -/
def Fits32 (n : Int) : Prop := -2147483648 ≤ n ∧ n ≤ 2147483647

theorem distinct_statefulSet : Shape.statefulSet.distinct = true := by decide +kernel

/-- A count in a stateful set is one of 32 bits. -/
theorem fits32_under {doc : Json} (h : Shape.statefulSet.normalize doc = .ok doc)
    {path : List String} (hpath : shapeUnder Shape.statefulSet path = some .int32) {n : Int}
    (hn : (under doc path).bind Json.asInt? = some n) : Fits32 n := by
  obtain ⟨part, hpart, hn⟩ := Option.bind_eq_some_iff.mp hn
  have hnormal := under_normal distinct_statefulSet h hpath hpart
  rw [Shape.normalize] at hnormal
  obtain ⟨m, hm, -⟩ := Reading.map_ok hnormal
  obtain ⟨rfl, hrange⟩ := Reader.within_ok hm
  cases hn
  exact hrange

/-- The counts that decide on a rollout are of 32 bits. -/
structure Counted (w : Workload) : Prop where
  replicas : ∀ desired, w.replicas = some desired → Fits32 desired
  partition : ∀ partition, w.rollingUpdate = some (some partition) → Fits32 partition
  updated : Fits32 w.updatedReplicas

/-- The counts of a document that was read as a stateful set are of 32 bits. -/
theorem counted_of {raw doc : Json} (h : Shape.statefulSet.normalize raw = .ok doc) :
    (Workload.of doc).Counted := by
  have hdoc := Shape.normalize_normalize distinct_statefulSet h
  refine ⟨fun desired hdesired => fits32_under hdoc (by rfl) hdesired, ?_, ?_⟩
  · intro partition hpartition
    obtain ⟨block, hblock, hpartition⟩ := Option.map_eq_some_iff.mp hpartition
    have hset : (under doc (["spec", "updateStrategy", "rollingUpdate"] ++ ["partition"])).bind
        Json.asInt? = some partition := by
      rw [under_concat, hblock]
      exact hpartition
    exact fits32_under hdoc (by rfl) hset
  · show Fits32 (((under doc ["status", "updatedReplicas"]).bind Json.asInt?).getD 0)
    cases hupdated : (under doc ["status", "updatedReplicas"]).bind Json.asInt? with
    | none => exact ⟨by decide, by decide⟩
    | some n => exact fits32_under hdoc (by rfl) hupdated

/-- A difference that 32 bits hold is counted as it is. -/
theorem excess_of_fits {n m : Int} (h : Fits32 (n - m)) : excess n m = n - m :=
  Int.bmod_eq_of_le (by have := h.1; omega) (by have := h.2; omega)

/-! ## What readiness tells -/

/-- What every rollout has come to that counts as ready. -/
structure Settled (w : Workload) : Prop where
  strategy : w.strategy = none ∨ w.strategy = some rollingUpdateName
  observed : w.observedGeneration ≠ 0
  latest : w.generation ≤ w.observedGeneration
  ready : ∀ desired, w.replicas = some desired → desired ≤ w.readyReplicas

/-- Whether no pod that is to be updated is old.  With a block for rolling updates these are
    the pods from the partition on, without a partition all of them. -/
def Updated (w : Workload) : Prop :=
  match w.rollingUpdate with
  | some partition =>
    ∀ desired, w.replicas = some desired → desired - partition.getD 0 ≤ w.updatedReplicas
  | none => w.updateRevision = w.currentRevision

/-- Whether pods are old behind a block for rolling updates that sets no partition. -/
def Unpartitioned (w : Workload) : Prop :=
  w.rollingUpdate = some none ∧ ∃ desired, w.replicas = some desired ∧ w.updatedReplicas < desired

/-- Whether there are more pods to update than 32 bits can count. -/
def Overflows (w : Workload) : Prop :=
  ∃ desired partition, w.replicas = some desired ∧ w.rollingUpdate = some (some partition) ∧
    2147483647 < desired - partition

/-- The rollout counts as ready. -/
def IsReady (w : Workload) : Prop := ∃ message, w.rollout = .ok ⟨true, message⟩

theorem ok_ready_iff (r : Rollout) :
    (∃ message, (.ok r : Except String Rollout) = .ok ⟨true, message⟩) ↔ r.ready = true := by
  obtain ⟨ready, text⟩ := r
  constructor
  · rintro ⟨message, h⟩
    cases h
    rfl
  · rintro rfl
    exact ⟨text, rfl⟩

/-- Nothing but the update is left to look at once all else is settled. -/
theorem rollout_of_settled {w : Workload} (h : w.Settled) : w.rollout = .ok w.updateProgress := by
  have hstrategy : w.strategy.getD rollingUpdateName = rollingUpdateName := by
    rcases h.strategy with hnone | hsome
    · rw [hnone, Option.getD_none]
    · rw [hsome, Option.getD_some]
  have hobserved : ¬ (w.observedGeneration = 0 ∨ w.observedGeneration < w.generation) := by
    rintro (hzero | hold)
    · exact h.observed hzero
    · exact absurd h.latest (Int.not_le.mpr hold)
  rw [rollout, if_neg (not_not_intro hstrategy), if_neg hobserved]
  split
  · rename_i desired hdesired
    rw [if_neg (Int.not_lt.mpr (h.ready desired hdesired))]
  · rfl

theorem settled_of_isReady {w : Workload} (h : w.IsReady) : w.Settled := by
  obtain ⟨message, h⟩ := h
  rw [rollout] at h
  split at h
  · cases h
  · rename_i hstrategy
    split at h
    · cases h
    · rename_i hobserved
      rw [not_or, Int.not_lt] at hobserved
      refine ⟨?_, hobserved.1, hobserved.2, ?_⟩
      · cases hset : w.strategy with
        | none => exact Or.inl rfl
        | some name =>
            rw [hset, Option.getD_some] at hstrategy
            exact Or.inr (congrArg some (Decidable.of_not_not hstrategy))
      · intro desired hdesired
        rw [hdesired] at h
        dsimp only at h
        split at h
        · cases h
        · rename_i hready
          exact Int.not_lt.mp hready

/-- A rollout counts as ready when all is settled and the update is taken for complete. -/
theorem isReady_iff (w : Workload) :
    w.IsReady ↔ w.Settled ∧ w.updateProgress.ready = true := by
  constructor
  · intro h
    have hsettled := settled_of_isReady h
    refine ⟨hsettled, ?_⟩
    rwa [IsReady, rollout_of_settled hsettled, ok_ready_iff] at h
  · rintro ⟨hsettled, hready⟩
    rwa [IsReady, rollout_of_settled hsettled, ok_ready_iff]

/-- Without a partition the update of a block is taken for complete. -/
theorem updateProgress_unset {w : Workload} (h : w.rollingUpdate = some none) :
    w.updateProgress.ready = true := by
  rw [updateProgress, h]
  cases w.replicas <;> rfl

/-- With a partition the pods behind it are counted, if it is known how many there are. -/
theorem updateProgress_partition {w : Workload} {partition : Int}
    (h : w.rollingUpdate = some (some partition)) :
    w.updateProgress.ready = true ↔
      ∀ desired, w.replicas = some desired → excess desired partition ≤ w.updatedReplicas := by
  rw [updateProgress, h]
  cases hreplicas : w.replicas with
  | none => simp
  | some desired =>
      dsimp only
      by_cases hbehind : w.updatedReplicas < excess desired partition
      · rw [if_pos hbehind]
        simp [hbehind]
      · rw [if_neg hbehind]
        simpa using hbehind

/-- Without a block the revisions are compared. -/
theorem updateProgress_revision {w : Workload} (h : w.rollingUpdate = none) :
    w.updateProgress.ready = true ↔ w.updateRevision = w.currentRevision := by
  rw [updateProgress, h]
  by_cases hsame : w.updateRevision = w.currentRevision <;> simp [hsame]

/-- **An update that is taken for complete** is complete, but in the two gaps. -/
theorem updated_iff {w : Workload} (hcounted : w.Counted) (h : w.updateProgress.ready = true) :
    w.Updated ↔ ¬ w.Unpartitioned ∧ ¬ w.Overflows := by
  cases hblock : w.rollingUpdate with
  | none =>
      have hsame := (updateProgress_revision hblock).mp h
      simp [Updated, Unpartitioned, Overflows, hblock, hsame]
  | some set =>
      cases set with
      | none => simp [Updated, Unpartitioned, Overflows, hblock]
      | some partition =>
          have hgoal := (updateProgress_partition hblock).mp h
          have hlow := hcounted.updated.1
          have hhigh := hcounted.updated.2
          simp only [Updated, hblock, Option.getD_some]
          constructor
          · intro hupdated
            refine ⟨fun hunset => (nomatch hblock.symm.trans hunset.1), ?_⟩
            rintro ⟨desired, other, hdesired, hother, hover⟩
            cases hblock.symm.trans hother
            have := hupdated desired hdesired
            omega
          · rintro ⟨-, hfits⟩ desired hdesired
            have hexcess := hgoal desired hdesired
            have hsmall : desired - partition ≤ 2147483647 := by
              refine Int.not_lt.mp fun hover => hfits ⟨desired, partition, hdesired, hblock, hover⟩
            by_cases hbelow : desired - partition < -2147483648
            · -- the count of updated pods is not that small
              omega
            · rwa [excess_of_fits ⟨Int.not_lt.mp hbelow, hsmall⟩] at hexcess

/-- An update that is complete is taken for complete, when there are no pods below zero. -/
theorem ready_of_updated {w : Workload} (hcounted : w.Counted) (h : w.Updated)
    (hreplicas : ∀ desired, w.replicas = some desired → 0 ≤ desired) :
    w.updateProgress.ready = true := by
  rw [Updated] at h
  cases hblock : w.rollingUpdate with
  | none =>
      rw [hblock] at h
      exact (updateProgress_revision hblock).mpr h
  | some set =>
      rw [hblock] at h
      cases set with
      | none => exact updateProgress_unset hblock
      | some partition =>
          refine (updateProgress_partition hblock).mpr fun desired hdesired => ?_
          have hpods := hreplicas desired hdesired
          have hdue := h desired hdesired
          rw [Option.getD_some] at hdue
          have hfits : Fits32 (desired - partition) :=
            ⟨by have := (hcounted.partition partition hblock).2; omega,
              Int.le_trans hdue hcounted.updated.2⟩
          rw [excess_of_fits hfits]
          exact hdue

/-- A rollout that was read from a document of a stateful set. -/
def IsRead (w : Workload) : Prop :=
  ∃ raw doc, Shape.statefulSet.normalize raw = .ok doc ∧ Workload.of doc = w

/-- **What readiness tells.**  For every stateful set that counts as ready the strategy can be
    followed, the latest specification was observed, and enough pods are ready.  No pod that is
    to be updated is old exactly if pods are not left behind a block without a partition, and
    the pods to update are not too many to be counted.  And where all of this is so for a number
    of pods that is not below zero, the stateful set counts as ready. -/
theorem isReady_exact {w : Workload} (h : w.IsRead) :
    (w.IsReady → w.Settled ∧ (w.Updated ↔ ¬ w.Unpartitioned ∧ ¬ w.Overflows)) ∧
      (w.Settled → w.Updated → (∀ desired, w.replicas = some desired → 0 ≤ desired) →
        w.IsReady) := by
  obtain ⟨raw, doc, hdoc, rfl⟩ := h
  have hcounted := counted_of hdoc
  constructor
  · intro hready
    obtain ⟨hsettled, hcomplete⟩ := (isReady_iff _).mp hready
    exact ⟨hsettled, updated_iff hcounted hcomplete⟩
  · intro hsettled hupdated hreplicas
    exact (isReady_iff _).mpr ⟨hsettled, ready_of_updated hcounted hupdated hreplicas⟩

/-- A document of a stateful set with three pods, all ready. -/
def threePods (block : Json) (updated : Int) : Json :=
  .obj [("metadata", .obj [("generation", .int 1), ("name", .str "gemma")]),
    ("spec", .obj [("replicas", .int 3), ("selector", .obj []), ("serviceName", .str "gemma"),
      ("template", .obj []), ("updateStrategy", .obj [("rollingUpdate", block)])]),
    ("status", .obj [("observedGeneration", .int 1), ("readyReplicas", .int 3),
      ("replicas", .int 3), ("updatedReplicas", .int updated)])]

/-- The rollout of such a stateful set. -/
def ofThreePods (partition : Option Int) (updated : Int) : Workload :=
  { generation := 1, rollingUpdate := some partition, replicas := some 3
    observedGeneration := 1, readyReplicas := 3, updatedReplicas := updated }

/-- Two of three pods are updated behind a partition that spares one. -/
theorem isReady_exact_partition :
    (ofThreePods (some 1) 2).IsRead ∧ (ofThreePods (some 1) 2).IsReady ∧
      (ofThreePods (some 1) 2).Updated := by
  have hread : (ofThreePods (some 1) 2).IsRead :=
    ⟨threePods (.obj [("partition", .int 1)]) 2, _, by rfl, by rfl⟩
  have hready : (ofThreePods (some 1) 2).IsReady := ⟨_, by rfl⟩
  refine ⟨hread, hready, ((isReady_exact hread).1 hready).2.mpr ⟨?_, ?_⟩⟩
  · rintro ⟨⟨⟩, -⟩
  · rintro ⟨desired, partition, ⟨⟩, ⟨⟩, hover⟩
    revert hover
    decide

/-- Three pods are ready, none of them is updated, and the block sets no partition. -/
theorem ready_with_old_pods :
    ∃ doc, Shape.statefulSet.normalize (threePods (.obj []) 0) = .ok doc ∧
      (Workload.of doc).rollout =
        .ok ⟨true, "partitioned roll out complete: 0 new pods have been updated"⟩ ∧
      ¬ (Workload.of doc).Updated := by
  refine ⟨_, by rfl, by rfl, fun hupdated => ?_⟩
  exact absurd (hupdated 3 (by rfl)) (by decide)

end Workload

end ModelOperator
