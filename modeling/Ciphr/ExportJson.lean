import Ciphr.ExportRender
import Ciphr.LibJsonObject
import Mathlib.Data.String.Basic

/-!
The object of an export: what its reader finds under which path.
-/

namespace Ciphr

variable {u : Unicode}

/-- What an object of strings is written as is read back, with a line feed behind it; a map gives its
members in the order of their keys. -/
def JsonObjects.Lawful (json : JsonObjects) : Prop :=
  ∀ object : List (String × String), object.Pairwise (·.1 < ·.1) →
    ∃ text, json.pretty object = some text ∧ json.parse (text ++ "\n") = some object

/-- The object has one value for each path, and nothing else. -/
structure ObjectOf (exported : List (Exported u)) (object : List (String × String)) : Prop where
  ordered : object.Pairwise (·.1 < ·.1)
  member : ∀ one ∈ object, ∃ secret ∈ exported, one = (secret.path.text, secret.value)
  path : ∀ secret ∈ exported, secret.path.text ∈ object.map (·.1)

theorem mem_insertMember {key value : String} {map : List (String × String)} {one : String × String}
    (h : one ∈ insertMember key value map) : one = (key, value) ∨ one ∈ map := by
  induction map with
  | nil => exact .inl (List.mem_singleton.mp h)
  | cons first rest ih =>
      unfold insertMember at h
      split at h
      · exact List.mem_cons.mp h
      · split at h
        · exact (List.mem_cons.mp h).imp id (List.mem_cons_of_mem _)
        · rcases List.mem_cons.mp h with rfl | h
          · exact .inr (List.mem_cons_self ..)
          · exact (ih h).imp id (List.mem_cons_of_mem _)

/-- The key is there afterwards, and no key is lost. -/
theorem mem_keys_insertMember {key value other : String} {map : List (String × String)} :
    other ∈ (insertMember key value map).map (·.1) ↔ other = key ∨ other ∈ map.map (·.1) := by
  induction map with
  | nil => simp [insertMember]
  | cons first rest ih =>
      unfold insertMember
      split
      · simp
      · split
        · rename_i hkey
          simp [hkey]
        · rw [List.map_cons, List.mem_cons, ih, List.map_cons, List.mem_cons]
          tauto

theorem pairwise_insertMember {key value : String} {map : List (String × String)}
    (h : map.Pairwise (·.1 < ·.1)) : (insertMember key value map).Pairwise (·.1 < ·.1) := by
  induction map with
  | nil => exact List.pairwise_singleton _ _
  | cons first rest ih =>
      obtain ⟨hfirst, hrest⟩ := List.pairwise_cons.mp h
      unfold insertMember
      split
      · rename_i hlt
        refine List.pairwise_cons.mpr ⟨fun one hone => ?_, h⟩
        rcases List.mem_cons.mp hone with rfl | hone
        · exact hlt
        · exact lt_trans hlt (hfirst one hone)
      · split
        · rename_i hkey
          refine List.pairwise_cons.mpr ⟨fun one hone => ?_, hrest⟩
          rw [hkey]
          exact hfirst one hone
        · rename_i hnlt hne
          refine List.pairwise_cons.mpr ⟨fun one hone => ?_, ih hrest⟩
          rcases mem_insertMember hone with rfl | hone
          · exact lt_of_le_of_ne (not_lt.mp hnlt) (Ne.symm hne)
          · exact hfirst one hone

/-- The map of a list of secrets, built one by one. -/
theorem objectOf_jsonMap (secrets : List (Exported u)) : ObjectOf secrets (jsonMap secrets) := by
  unfold jsonMap
  induction secrets using List.reverseRecOn with
  | nil => exact ⟨.nil, List.forall_mem_nil _, List.forall_mem_nil _⟩
  | append_singleton secrets last ih =>
      rw [List.foldl_append, List.foldl_cons, List.foldl_nil]
      refine ⟨pairwise_insertMember ih.ordered, ?_, ?_⟩
      · intro one hone
        rcases mem_insertMember hone with rfl | hone
        · exact ⟨last, List.mem_append_right _ (List.mem_singleton_self _), rfl⟩
        · obtain ⟨secret, hsecret, hsame⟩ := ih.member one hone
          exact ⟨secret, List.mem_append_left _ hsecret, hsame⟩
      · intro secret hsecret
        rw [mem_keys_insertMember]
        rcases List.mem_append.mp hsecret with hsecret | hsecret
        · exact .inr (ih.path secret hsecret)
        · exact .inl (by rw [List.mem_singleton.mp hsecret])

/-- **A rendered set is read back as its object.** -/
theorem parse_renderJson {json : JsonObjects} (h : json.Lawful) (secrets : List (Exported u)) :
    ∃ object, json.parse (renderJson json secrets) = some object ∧ ObjectOf secrets object := by
  have hobject := objectOf_jsonMap secrets
  obtain ⟨text, hpretty, hparse⟩ := h _ hobject.ordered
  refine ⟨jsonMap secrets, ?_, hobject⟩
  unfold renderJson
  rw [hpretty]
  exact hparse

namespace Sample

def serdeJson : JsonObjects := ⟨fun object => some (JsonObject.pretty object), JsonObject.parse⟩

end Sample

end Ciphr
