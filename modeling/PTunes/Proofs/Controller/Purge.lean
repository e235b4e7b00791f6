import PTunes.Controller.Purge
import Mathlib.Data.Rat.Defs

/-!
# `PTunes.Proofs.Controller.Purge`: when a purge is safe

The thread tests whether the history is empty before it removes the old topologies, and not
after it. When all of them are old, `getFirst` raises an exception, which ends the thread.

* `toList_withoutNodes`: what is left of a topology without its silent nodes.
* `purge_safe_iff`: a purge is safe exactly when some topology is not old.
-/

set_option autoImplicit false

namespace PTunes.Controller

variable {ρ : Type} {conf : PurgeConf} {now : Int}

/-- The topologies of a history that are not older than the time window. -/
def kept (conf : PurgeConf) (now : Int) (topologyHistory : List (Topology ρ)) :
    List (Topology ρ) :=
  topologyHistory.filter fun t => !t.isOld conf now

/-- A purge ends without an exception, removes the old topologies and no other one, and adds at
most one in front. The most recent topology has no silent node, and it has the other records of
the one that was the most recent. -/
def SafePurge (conf : PurgeConf) (now : Int) (topologyHistory : List (Topology ρ)) : Prop :=
  ∃ purged, purge conf now topologyHistory = some purged ∧
    (∃ new, purged = new ++ kept conf now topologyHistory ∧ new.length ≤ 1) ∧
    ∀ t ∈ purged.head?, (∀ n ∈ t.nodes.toList, n.isSilent conf now = false) ∧
      ∀ last ∈ (kept conf now topologyHistory).head?, ∀ n ∈ last.nodes.toList,
        n.isSilent conf now = false → t.getNodeInfo n.nodeId = some n

namespace Topology

variable (t : Topology ρ)

/-- The silent nodes are the ones that the loop finds. -/
theorem toList_silentNodes :
    (t.silentNodes conf now).toList = t.nodes.toList.filter (·.isSilent conf now) :=
  t.nodes.toList_addAll_filter (·.isSilent conf now)

/-- A record of the topology is in the set when it is silent. The set compares ids, which are
distinct in a topology. -/
theorem contains_silentNodes {n : NodeTopologyInfo ρ} (hn : n ∈ t.nodes.toList) :
    (t.silentNodes conf now).contains n = n.isSilent conf now := by
  rw [Bool.eq_iff_iff, KeyedSet.contains_iff, toList_silentNodes, List.mem_map]
  constructor
  · rintro ⟨m, hm, hid⟩
    obtain ⟨hmem, hsilent⟩ := List.mem_filter.mp hm
    rwa [← List.inj_on_of_nodup_map t.nodes.nodup hmem hn hid]
  · intro hsilent
    exact ⟨n, List.mem_filter.mpr ⟨hn, hsilent⟩, rfl⟩

/-- The records of the topology without its silent nodes. -/
theorem toList_withoutNodes :
    (t.withoutNodes (t.silentNodes conf now) now).nodes.toList =
      t.nodes.toList.filter fun n => !n.isSilent conf now := by
  have hfilter : (t.nodes.toList.filter fun n => !(t.silentNodes conf now).contains n) =
      t.nodes.toList.filter fun n => !n.isSilent conf now :=
    List.filter_congr fun n hn => by rw [contains_silentNodes t hn]
  have hclone : (t.nodes.toList.filter fun n => !n.isSilent conf now).map
      NodeTopologyInfo.clone = t.nodes.toList.filter fun n => !n.isSilent conf now :=
    List.map_id'' (fun _ => rfl) _
  show (KeyedSet.empty.addAll ((t.nodes.toList.filter fun n =>
    !(t.silentNodes conf now).contains n).map NodeTopologyInfo.clone) : NodeSet ρ).toList = _
  rw [hfilter, hclone]
  exact t.nodes.toList_addAll_filter fun n => !n.isSilent conf now

end Topology

/-- The topologies that are left, with the most recent one in front. -/
theorem purge_of_kept {t last : Topology ρ} {history older : List (Topology ρ)}
    (h : kept conf now (t :: history) = last :: older) :
    purge conf now (t :: history) = some
      (if (last.silentNodes conf now).toList.isEmpty then last :: older
        else last.withoutNodes (last.silentNodes conf now) now :: last :: older) := by
  rw [kept] at h
  rw [purge, if_neg (by simp), h]
  exact (apply_ite some _ _ _).symm

/-- A purge is safe exactly when some topology is not old. -/
theorem purge_safe_iff (conf : PurgeConf) (now : Int) (t : Topology ρ)
    (history : List (Topology ρ)) :
    SafePurge conf now (t :: history) ↔ ∃ u ∈ t :: history, u.isOld conf now = false := by
  cases hkept : kept conf now (t :: history) with
  | nil =>
      -- All are old.
      have hnone : purge conf now (t :: history) = none := by
        rw [kept] at hkept
        rw [purge, if_neg (by simp), hkept]
      constructor
      · rintro ⟨purged, hpurged, _⟩
        rw [hnone] at hpurged
        exact nomatch hpurged
      · rintro ⟨u, hu, hold⟩
        have := List.filter_eq_nil_iff.mp hkept u hu
        rw [hold] at this
        exact absurd rfl this
  | cons last older =>
      have hlast : last ∈ kept conf now (t :: history) := hkept ▸ List.mem_cons_self
      obtain ⟨hmem, hold⟩ := List.mem_filter.mp hlast
      have hpurge := purge_of_kept hkept
      refine ⟨fun _ => ⟨last, hmem, by simpa using hold⟩, fun _ => ?_⟩
      cases hsilent : (last.silentNodes conf now).toList.isEmpty with
      | true =>
          -- No node is silent.
          rw [hsilent, if_pos rfl] at hpurge
          refine ⟨_, hpurge, ⟨[], hkept.symm, Nat.zero_le 1⟩, ?_⟩
          intro u hu
          cases hu
          rw [Topology.toList_silentNodes, List.isEmpty_iff, List.filter_eq_nil_iff] at hsilent
          refine ⟨fun n hn => by simpa using hsilent n hn, ?_⟩
          rw [hkept]
          intro last' hlast' n hn _
          cases hlast'
          exact Topology.getNodeInfo_eq_some_iff.mpr ⟨hn, rfl⟩
      | false =>
          rw [hsilent, if_neg Bool.false_ne_true] at hpurge
          refine ⟨_, hpurge, ⟨[_], by rw [hkept]; rfl, Nat.le_refl 1⟩, ?_⟩
          intro u hu
          cases hu
          have hnodes : (last.withoutNodes (last.silentNodes conf now) now).nodes.toList =
              last.nodes.toList.filter fun n => !n.isSilent conf now :=
            last.toList_withoutNodes
          refine ⟨fun n hn => ?_, ?_⟩
          · rw [hnodes, List.mem_filter] at hn
            simpa using hn.2
          · rw [hkept]
            intro last' hlast' n hn hloud
            cases hlast'
            rw [Topology.getNodeInfo_eq_some_iff, hnodes, List.mem_filter]
            exact ⟨⟨hn, by rw [hloud]; rfl⟩, rfl⟩

/-- The sink and one node, from which no packet has come for more than the time window of an
hour. -/
theorem not_safePurge :
    ¬ ∀ (conf : PurgeConf) (now : Int) (topologyHistory : List (Topology ℚ)),
      topologyHistory ≠ [] → SafePurge conf now topologyHistory := by
  intro h
  let t : Topology ℚ :=
    .ofSink ⟨0, 1, 1, 1000, 0, ⟨16, 100, 3⟩⟩ ⟨0, 2, 1, 1000, 6, ⟨16, 100, 3⟩⟩ 0
  obtain ⟨purged, hpurged, _⟩ := h ⟨1, 60, 5⟩ 3601 [t] (by simp)
  have hnone : purge ⟨1, 60, 5⟩ 3601 [t] = none := by decide +kernel
  rw [hnone] at hpurged
  exact nomatch hpurged

end PTunes.Controller
