import Mokosh.Lib.Table
import Mokosh.Lib.Walks
import Mokosh.Workflows.Executor

/-! # The impact graph of an asset

`assets/service.rs`, `compute_impact_graph`: two recursive queries over the relationships of a tenant's assets, one down
from the asset and one up.  They join `UNION ALL`, so that an asset comes up once for every way that leads to it, and a
cycle is gone round until the depth is used up.

* **`impact_counts`**: at each depth up to the one that the answer names, and at no other, an asset comes up as often as
  there are walks of so many relationships from the root to it, or from it to the root.
* **`impact_mirror`**: downstream of `a` there is `b` as often, and as deep, as `a` is upstream of `b`. -/

namespace Mokosh.Assets

open Workflows (Json)

structure Asset where
  id : Uuid
  tenantId : Uuid
  name : String
deriving DecidableEq

structure AssetRelationship where
  id : Uuid
  tenantId : Uuid
  parentAssetId : Uuid
  childAssetId : Uuid
  relationshipType : String
deriving DecidableEq

/-- `setting` is the value of `ci/impact_max_depth`, and `nameLe` the order of the database's texts. -/
structure AssetsDb where
  assets : Table Asset.id
  relationships : List AssetRelationship
  setting : Uuid → Option Json
  nameLe : String → String → Bool

inductive ImpactDirection where
  | upstream
  | downstream
  | both
deriving DecidableEq

structure ImpactNodeRow where
  assetId : Uuid
  name : String
  parentAssetId : Uuid
  childAssetId : Uuid
  relationshipType : String
  depth : ℕ
  direction : String
deriving DecidableEq

/-- `Value::as_u64`. -/
def asU64 : Json → Option ℕ
  | .number text => text.toNat?.filter (· < 2 ^ 64)
  | _ => none

def readCiImpactMaxDepth (value : Option Json) : ℕ := ((value.bind asU64).map fun n => max 1 (min n 10)).getD 5

/-- A row of the recursive part of a query. -/
structure Reached where
  edge : AssetRelationship
  depth : ℕ
deriving DecidableEq

section Query

variable (near far : AssetRelationship → Uuid) (edges : List AssetRelationship) (root : Uuid) (cap : ℕ)

def seed : List Reached := (edges.filter fun r => near r = root).map fun r => { edge := r, depth := 1 }

/-- The join of the relationships with what the round before has found. -/
def recurse (rows : List Reached) : List Reached :=
  edges.flatMap fun r => (rows.filter fun d => near r = far d.edge && d.depth < cap).map fun d =>
    { edge := r, depth := d.depth + 1 }

/-- The recursive query; after `cap` rounds there is nothing left to join. -/
def traverse : List Reached := Walks.unionAll (recurse near far edges cap) cap (seed near edges root)

end Query

namespace AssetsDb

variable (db : AssetsDb) (tenant root : Uuid) (cap : ℕ)

def edges : List AssetRelationship := db.relationships.filter fun r => r.tenantId = tenant

/-- The outer query: the names of the tenant's assets, and the order. -/
def nodes (near far : AssetRelationship → Uuid) (direction : String) : List ImpactNodeRow :=
  ((traverse near far (db.edges tenant) root cap).filterMap fun d =>
    ((db.assets.find (far d.edge)).filter fun a => a.tenantId = tenant).map fun a =>
      { assetId := far d.edge
        name := a.name
        parentAssetId := d.edge.parentAssetId
        childAssetId := d.edge.childAssetId
        relationshipType := d.edge.relationshipType
        depth := d.depth
        direction := direction }).mergeSort fun x y =>
    x.depth < y.depth || x.depth = y.depth && db.nameLe x.name y.name

def downstream : List ImpactNodeRow :=
  db.nodes tenant root cap AssetRelationship.parentAssetId AssetRelationship.childAssetId "downstream"

def upstream : List ImpactNodeRow :=
  db.nodes tenant root cap AssetRelationship.childAssetId AssetRelationship.parentAssetId "upstream"

/-- The halves that were asked for. -/
def graph (direction : ImpactDirection) : List ImpactNodeRow :=
  (if direction = .downstream || direction = .both then db.downstream tenant root cap else []) ++
    if direction = .upstream || direction = .both then db.upstream tenant root cap else []

def computeImpactGraph (direction : ImpactDirection) (requestedDepth : ℕ) : AppResult (ℕ × List ImpactNodeRow) :=
  if ((db.assets.find root).filter fun a => a.tenantId = tenant).isNone then .error (.notFound "Asset")
  else
    let depth := min (max 1 (min requestedDepth 10)) (readCiImpactMaxDepth (db.setting tenant))
    .ok (depth, db.graph tenant root depth direction)

end AssetsDb

/-! ### Rounds -/

section Rounds

variable {near far : AssetRelationship → Uuid} {edges : List AssetRelationship} {root : Uuid} {cap : ℕ}

/-- The `k`-th round holds the walks of `k + 1` relationships. -/
theorem iterate_recurse {k : ℕ} (hk : k < cap) : (recurse near far edges cap)^[k] (seed near edges root) =
    (Walks.level near far edges root k).map fun r => { edge := r, depth := k + 1 } := by
  induction k with
  | zero => rfl
  | succ k ih =>
      rw [Function.iterate_succ_apply', ih (by omega)]
      unfold recurse
      rw [Walks.level_succ, List.map_flatMap]
      refine congrArg List.flatten (List.map_congr_left fun r _ => ?_)
      rw [List.filter_map, List.map_map, List.map_map]
      have hfilter : ((fun d : Reached => decide (near r = far d.edge) && decide (d.depth < cap)) ∘
          fun r => { edge := r, depth := k + 1 }) = fun d => decide (near r = far d) := by
        funext d
        simp [hk]
      rw [hfilter]
      rfl

omit near far edges root cap in
theorem sum_range_ite (m n c : ℕ) : ((List.range m).map fun k => if k + 1 = n then c else 0).sum =
    if 1 ≤ n ∧ n ≤ m then c else 0 := by
  induction m with
  | zero => exact (if_neg (by omega)).symm
  | succ m ih =>
      rw [List.range_succ, List.map_append, List.sum_append, ih, List.map_singleton, List.sum_singleton]
      split_ifs <;> omega

/-- How often the query comes to `b` at the depth `n`. -/
theorem countP_traverse (b : Uuid) (n : ℕ) :
    (traverse near far edges root cap).countP (fun d => far d.edge = b && d.depth = n) =
      if 1 ≤ n ∧ n ≤ cap then Walks.count near far edges n root b else 0 := by
  unfold traverse
  rw [Walks.countP_unionAll]
  have hround : ∀ k ∈ List.range cap, ((recurse near far edges cap)^[k] (seed near edges root)).countP
      (fun d => far d.edge = b && d.depth = n) = if k + 1 = n then Walks.count near far edges n root b else 0 := by
    intro k hk
    rw [iterate_recurse (List.mem_range.mp hk), List.countP_map]
    split
    · next heq =>
        subst heq
        rw [← Walks.countP_level_target]
        refine congrArg (List.countP · _) (funext fun r => ?_)
        simp
    · next hne =>
        refine List.countP_eq_zero.mpr fun r _ => ?_
        simp [hne]
  rw [List.map_congr_left hround, sum_range_ite]

end Rounds

/-! ### The graph -/

section Graph

variable {db : AssetsDb} {tenant root a b : Uuid} {cap depth depth' requested requested' : ℕ}
  {direction direction' : ImpactDirection} {nodes nodes' : List ImpactNodeRow}

/-- The tenant has the asset. -/
def AssetsDb.has (db : AssetsDb) (tenant a : Uuid) : Bool := (db.assets.find a).any fun r => r.tenantId = tenant

/-- How many walks of `n` of the tenant's relationships lead down from `a` to `b`. -/
def AssetsDb.walksDown (db : AssetsDb) (tenant : Uuid) (n : ℕ) (a b : Uuid) : ℕ :=
  Walks.count AssetRelationship.parentAssetId AssetRelationship.childAssetId (db.edges tenant) n a b

/-- How often `b` comes up at the depth `n` of one half of the graph. -/
def occurrences (nodes : List ImpactNodeRow) (half : String) (b : Uuid) (n : ℕ) : ℕ :=
  nodes.countP fun x => x.direction = half && (x.assetId = b && x.depth = n)

theorem occurrences_nodes (near far : AssetRelationship → Uuid) (half : String) (b : Uuid) (n : ℕ) :
    occurrences (db.nodes tenant root cap near far half) half b n =
      if db.has tenant b ∧ 1 ≤ n ∧ n ≤ cap then Walks.count near far (db.edges tenant) n root b else 0 := by
  unfold occurrences AssetsDb.nodes
  rw [(List.mergeSort_perm _ _).countP_eq, List.countP_filterMap, ite_and, ← countP_traverse]
  split
  · next hb =>
      obtain ⟨r, hr, htenant⟩ := (Option.any_eq_true _ _).mp hb
      refine congrArg (List.countP · _) (funext fun d => ?_)
      by_cases hd : far d.edge = b
      · rw [hd, hr, Option.filter_some, if_pos htenant]
        simp
      · cases hfind : (db.assets.find (far d.edge)).filter fun a => decide (a.tenantId = tenant) with
        | none => simp [hd]
        | some r' => simp [hd]
  · next hb =>
      refine List.countP_eq_zero.mpr fun d _ => ?_
      cases hfind : (db.assets.find (far d.edge)).filter fun a => decide (a.tenantId = tenant) with
      | none => simp
      | some r =>
          obtain ⟨hr, htenant⟩ := Option.filter_eq_some_iff.mp hfind
          -- An asset of another tenant has no row here, though a walk may lead through it.
          have hd : far d.edge ≠ b := fun heq => hb ((Option.any_eq_true _ _).mpr ⟨r, heq ▸ hr, htenant⟩)
          simp [hd]

theorem occurrences_other {half other : String} (hne : half ≠ other) (near far : AssetRelationship → Uuid) (b : Uuid)
    (n : ℕ) : occurrences (db.nodes tenant root cap near far half) other b n = 0 := by
  unfold occurrences AssetsDb.nodes
  rw [(List.mergeSort_perm _ _).countP_eq, List.countP_filterMap]
  refine List.countP_eq_zero.mpr fun d _ => ?_
  cases (db.assets.find (far d.edge)).filter fun a => decide (a.tenantId = tenant) with
  | none => simp
  | some r => simp [hne]

theorem occurrences_append (l l' : List ImpactNodeRow) (half : String) (b : Uuid) (n : ℕ) :
    occurrences (l ++ l') half b n = occurrences l half b n + occurrences l' half b n := List.countP_append

theorem occurrences_nil (half : String) (b : Uuid) (n : ℕ) : occurrences [] half b n = 0 := rfl

variable (db tenant root cap b) in
/-- The half that leads down. -/
theorem occurrences_downstream (n : ℕ) : occurrences (db.downstream tenant root cap) "downstream" b n =
      (if db.has tenant b ∧ 1 ≤ n ∧ n ≤ cap then db.walksDown tenant n root b else 0) ∧
    occurrences (db.upstream tenant root cap) "downstream" b n = 0 :=
  ⟨occurrences_nodes _ _ _ _ _, occurrences_other (by decide) _ _ _ _⟩

variable (db tenant root cap b) in
/-- The half that leads up: the walks down to the root, gone back. -/
theorem occurrences_upstream (n : ℕ) : occurrences (db.upstream tenant root cap) "upstream" b n =
      (if db.has tenant b ∧ 1 ≤ n ∧ n ≤ cap then db.walksDown tenant n b root else 0) ∧
    occurrences (db.downstream tenant root cap) "upstream" b n = 0 := by
  refine ⟨?_, occurrences_other (by decide) _ _ _ _⟩
  unfold AssetsDb.upstream AssetsDb.walksDown
  rw [occurrences_nodes, Walks.count_swap]

variable (db tenant root cap b direction) in
theorem occurrences_graph (n : ℕ) :
    occurrences (db.graph tenant root cap direction) "downstream" b n =
      (if direction ≠ .upstream ∧ db.has tenant b ∧ 1 ≤ n ∧ n ≤ cap then db.walksDown tenant n root b else 0) ∧
    occurrences (db.graph tenant root cap direction) "upstream" b n =
      if direction ≠ .downstream ∧ db.has tenant b ∧ 1 ≤ n ∧ n ≤ cap then db.walksDown tenant n b root else 0 := by
  unfold AssetsDb.graph
  rw [occurrences_append, occurrences_append]
  cases direction with
  | upstream => simp [occurrences_downstream, occurrences_upstream, occurrences_nil]
  | downstream => simp [occurrences_downstream, occurrences_upstream, occurrences_nil]
  | both => simp [occurrences_downstream, occurrences_upstream]

theorem computeImpactGraph_eq_ok (h : db.computeImpactGraph tenant root direction requested = .ok (depth, nodes)) :
    db.has tenant root = true ∧ (1 ≤ depth ∧ depth ≤ 10 ∧ depth ≤ readCiImpactMaxDepth (db.setting tenant)) ∧
      nodes = db.graph tenant root depth direction := by
  unfold AssetsDb.computeImpactGraph at h
  split at h
  · cases h
  · next hsome =>
      cases h
      have hcap : 1 ≤ readCiImpactMaxDepth (db.setting tenant) := by
        unfold readCiImpactMaxDepth
        cases (db.setting tenant).bind asU64 with
        | none => decide
        | some n => simp
      refine ⟨?_, by omega, rfl⟩
      cases hroot : (db.assets.find root).filter fun a => decide (a.tenantId = tenant) with
      | none => exact absurd (congrArg Option.isNone hroot) hsome
      | some r =>
          obtain ⟨hr, htenant⟩ := Option.filter_eq_some_iff.mp hroot
          exact (Option.any_eq_true _ _).mpr ⟨r, hr, htenant⟩

/-- The root is an asset of the tenant, and the depth is within bounds; in each half that was asked for, an asset of the
tenant comes up at each depth up to that as often as walks of so many relationships lead to it, and nothing else
comes up. -/
theorem impact_counts (h : db.computeImpactGraph tenant root direction requested = .ok (depth, nodes)) :
    db.has tenant root = true ∧ (1 ≤ depth ∧ depth ≤ 10 ∧ depth ≤ readCiImpactMaxDepth (db.setting tenant)) ∧
      ∀ b n,
        occurrences nodes "downstream" b n =
          (if direction ≠ .upstream ∧ db.has tenant b ∧ 1 ≤ n ∧ n ≤ depth then db.walksDown tenant n root b else 0) ∧
        occurrences nodes "upstream" b n =
          if direction ≠ .downstream ∧ db.has tenant b ∧ 1 ≤ n ∧ n ≤ depth then db.walksDown tenant n b root else 0 := by
  obtain ⟨hroot, hdepth, rfl⟩ := computeImpactGraph_eq_ok h
  exact ⟨hroot, hdepth, fun b n => occurrences_graph db tenant root b depth direction n⟩

/-- Downstream of `a` there is `b` as often, and as deep, as upstream of `b` there is `a`, as deep as both graphs go. -/
theorem impact_mirror (h : db.computeImpactGraph tenant a direction requested = .ok (depth, nodes))
    (h' : db.computeImpactGraph tenant b direction' requested' = .ok (depth', nodes')) (hd : direction ≠ .upstream)
    (hd' : direction' ≠ .downstream) (n : ℕ) (hn : n ≤ min depth depth') :
    occurrences nodes "downstream" b n = occurrences nodes' "upstream" a n := by
  obtain ⟨hroot, -, rfl⟩ := computeImpactGraph_eq_ok h
  obtain ⟨hroot', -, rfl⟩ := computeImpactGraph_eq_ok h'
  rw [(occurrences_graph db tenant a b depth direction n).1, (occurrences_graph db tenant b a depth' direction' n).2]
  refine if_congr ?_ rfl rfl
  simp only [hroot, hroot', hd, hd', ne_eq, not_false_eq_true, true_and]
  omega

end Graph

/-! ### A server with two services -/

/-- The server hosts two services, on both of which a third one depends, which is connected to the server again. -/
def hostDb : AssetsDb where
  assets := ((((∅ : Table Asset.id).insert fun id => { id := id, tenantId := 1, name := "srv" }).insert fun id =>
    { id := id, tenantId := 1, name := "db" }).insert fun id => { id := id, tenantId := 1, name := "cache" }).insert
      fun id => { id := id, tenantId := 1, name := "app" }
  relationships := [⟨10, 1, 0, 1, "hosts"⟩, ⟨11, 1, 0, 2, "hosts"⟩, ⟨12, 1, 1, 3, "depends_on"⟩,
    ⟨13, 1, 2, 3, "depends_on"⟩, ⟨14, 1, 3, 0, "connected_to"⟩]
  setting _ := none
  nameLe x y := x ≤ y

theorem impact_counts_hostDb : ∃ depth nodes, hostDb.computeImpactGraph 1 0 .both 4 = .ok (depth, nodes) ∧
    hostDb.walksDown 1 2 0 3 = 2 ∧ occurrences nodes "downstream" 3 2 = 2 := by
  have h : hostDb.computeImpactGraph 1 0 .both 4 = .ok (4, hostDb.graph 1 0 4 .both) := rfl
  have hwalks : hostDb.walksDown 1 2 0 3 = 2 := by
    decide
  have hhas : hostDb.has 1 3 = true := by
    decide
  refine ⟨_, _, h, hwalks, ?_⟩
  rw [((impact_counts h).2.2 3 2).1, if_pos ⟨by decide, hhas, by decide, by decide⟩, hwalks]

theorem impact_mirror_hostDb : ∃ depth nodes depth' nodes',
    hostDb.computeImpactGraph 1 0 .both 4 = .ok (depth, nodes) ∧
      hostDb.computeImpactGraph 1 3 .upstream 9 = .ok (depth', nodes') ∧
      occurrences nodes "downstream" 3 2 = occurrences nodes' "upstream" 0 2 := by
  have h : hostDb.computeImpactGraph 1 0 .both 4 = .ok (4, hostDb.graph 1 0 4 .both) := rfl
  have h' : hostDb.computeImpactGraph 1 3 .upstream 9 = .ok (5, hostDb.graph 1 3 5 .upstream) := rfl
  exact ⟨_, _, _, _, h, h', impact_mirror h h' (by decide) (by decide) 2 (by decide)⟩

end Mokosh.Assets
