import Mathlib.Data.List.Induction
import QueryShape.Proofs.ScriptIdentities

namespace QueryShape

variable {α β : Type}

theorem exists_sublist_of_forall₂_filter {R : α → β → Prop} {p : β → Bool} {as : List α}
    {bs : List β} (h : List.Forall₂ R as bs) :
    ∃ kept, kept.Sublist as ∧ List.Forall₂ (fun a b => R a b ∧ p b = true) kept (bs.filter p) := by
  induction h with
  | nil => exact ⟨[], .slnil, .nil⟩
  | @cons a b as bs hab _ ih =>
      obtain ⟨kept, hsublist, hkept⟩ := ih
      by_cases hb : p b = true
      · refine ⟨a :: kept, hsublist.cons_cons a, ?_⟩
        rw [List.filter_cons_of_pos hb]
        exact .cons ⟨hab, hb⟩ hkept
      · refine ⟨kept, hsublist.cons a, ?_⟩
        rwa [List.filter_cons_of_neg hb]

namespace GlobRules

variable {table : QualifiedName} {requests kept : List TableScriptRule}
  {r request : TableScriptRule} {place : Nat}

/-- What the rules for a table ask for, in the order of their declaration. -/
def requestsFor (g : GlobRules) (table : QualifiedName) : List TableScriptRule :=
  (g.rules.filter fun rule => rule.appliesTo .tables table.plain).flatMap (·.tableScripts)

/-- The request stands at the place, and none after it is for the same script. -/
def IsLastAt (table : QualifiedName) (requests : List TableScriptRule) (place : Nat)
    (r : TableScriptRule) : Prop :=
  ∃ before after, requests = before ++ r :: after ∧ before.length = place ∧
    ∀ later ∈ after, later.identity table ≠ r.identity table

theorem IsLastAt.lt_length (h : IsLastAt table requests place r) : place < requests.length := by
  obtain ⟨before, after, rfl, rfl, -⟩ := h
  rw [List.length_append, List.length_cons]
  omega

theorem IsLastAt.snoc (h : IsLastAt table requests place r)
    (hother : r.identity table ≠ request.identity table) :
    IsLastAt table (requests ++ [request]) place r := by
  obtain ⟨before, after, rfl, hplace, hafter⟩ := h
  refine ⟨before, after ++ [request], by rw [List.append_assoc, List.cons_append], hplace, ?_⟩
  exact List.forall_mem_append.2 ⟨hafter, List.forall_mem_singleton.2 hother.symm⟩

theorem isLastAt_length (requests : List TableScriptRule) (request : TableScriptRule) :
    IsLastAt table (requests ++ [request]) requests.length request :=
  ⟨requests, [], rfl, rfl, List.forall_mem_nil _⟩

/-- For each script that is asked for the last request is kept, in the order of the requests. -/
structure KeepsLast (table : QualifiedName) (requests kept : List TableScriptRule) : Prop where
  identities : ∀ identity, identity ∈ kept.map (·.identity table) ↔
    identity ∈ requests.map (·.identity table)
  places : ∃ places : List Nat, places.Pairwise (· < ·) ∧
    List.Forall₂ (IsLastAt table requests) places kept

theorem keepsLast_nil : KeepsLast table [] [] :=
  ⟨fun _ => .rfl, [], .nil, .nil⟩

theorem mem_map_addScript_iff {identity : String} :
    identity ∈ (addScript table kept request).map (·.identity table) ↔
      identity ∈ kept.map (·.identity table) ∨ identity = request.identity table := by
  simp only [addScript, List.map_append, List.map_cons, List.map_nil, List.mem_append,
    List.mem_singleton, List.mem_map, List.mem_filter, bne_iff_ne]
  by_cases hsame : identity = request.identity table
  · simp [hsame]
  · simp only [hsame, or_false]
    constructor
    · rintro ⟨r, ⟨hr, -⟩, rfl⟩
      exact ⟨r, hr, rfl⟩
    · rintro ⟨r, hr, rfl⟩
      exact ⟨r, ⟨hr, hsame⟩, rfl⟩

theorem KeepsLast.addScript (h : KeepsLast table requests kept) (request : TableScriptRule) :
    KeepsLast table (requests ++ [request]) (addScript table kept request) := by
  constructor
  · intro identity
    rw [mem_map_addScript_iff, h.identities, List.map_append, List.mem_append, List.map_cons,
      List.map_nil, List.mem_singleton]
  · obtain ⟨places, hplaces, hkept⟩ := h.places
    obtain ⟨others, hothers, hfiltered⟩ := exists_sublist_of_forall₂_filter
      (p := fun r => r.identity table != request.identity table) hkept
    have hbefore : ∀ place ∈ others, place < requests.length := fun place hplace =>
      (exists_of_mem_forall₂_left hfiltered place hplace).elim fun _ hr => hr.2.1.lt_length
    refine ⟨others ++ [requests.length], ?_, ?_⟩
    · refine List.pairwise_append.2 ⟨hplaces.sublist hothers, List.pairwise_singleton _ _, ?_⟩
      intro place hplace last hlast
      rw [List.mem_singleton.1 hlast]
      exact hbefore place hplace
    · refine List.rel_append (hfiltered.imp fun place r hr => ?_)
        (.cons (isLastAt_length requests request) .nil)
      exact hr.1.snoc (bne_iff_ne.1 hr.2)

theorem keepsLast_foldl (requests : List TableScriptRule) :
    KeepsLast table requests (requests.foldl (GlobRules.addScript table) []) := by
  induction requests using List.reverseRecOn with
  | nil => exact keepsLast_nil
  | append_singleton requests request ih =>
      rw [List.foldl_append, List.foldl_cons, List.foldl_nil]
      exact ih.addScript request

theorem mem_map_requestsFor_iff {g : GlobRules} {identity : String} :
    identity ∈ (g.requestsFor table).map (·.identity table) ↔
      ∃ rule ∈ g.rules, rule.appliesTo .tables table.plain = true ∧
        ∃ r ∈ rule.tableScripts, r.identity table = identity := by
  simp only [requestsFor, List.mem_map, List.mem_flatMap, List.mem_filter]
  constructor
  · rintro ⟨r, ⟨rule, ⟨hrule, happlies⟩, hr⟩, hidentity⟩
    exact ⟨rule, hrule, happlies, r, hr, hidentity⟩
  · rintro ⟨rule, hrule, happlies, r, hr, hidentity⟩
    exact ⟨r, ⟨rule, ⟨hrule, happlies⟩, hr⟩, hidentity⟩

/-- A table gets one request for each script that some rule for it asks for, and this is the last
one that the rules make. The requests stand in the order of their declaration. -/
theorem tableScripts_last_of_each (g : GlobRules) (table : QualifiedName) :
    ((g.tableScripts table).map (·.identity table)).Nodup ∧
    (∀ identity, identity ∈ (g.tableScripts table).map (·.identity table) ↔
      ∃ rule ∈ g.rules, rule.appliesTo .tables table.plain = true ∧
        ∃ r ∈ rule.tableScripts, r.identity table = identity) ∧
    ∃ places : List Nat, places.Pairwise (· < ·) ∧
      List.Forall₂ (IsLastAt table (g.requestsFor table)) places (g.tableScripts table) := by
  have hkept : KeepsLast table (g.requestsFor table) (g.tableScripts table) :=
    keepsLast_foldl (g.requestsFor table)
  refine ⟨g.nodup_tableScripts table, fun identity => ?_, hkept.places⟩
  rw [hkept.identities, mem_map_requestsFor_iff]

end GlobRules

end QueryShape
