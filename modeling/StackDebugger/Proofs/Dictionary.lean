import Mathlib.Data.List.Induction
import Mathlib.Data.String.Basic
import StackDebugger.Collections

/-!
# Names and values of dictionaries

A dictionary keeps its names in strictly ascending order.  Pairs whose names are distinct all have
their place in the dictionary that is made of them, and each name is found there with its value.
-/

namespace StackDebugger.Dictionary

variable {α : Type}

/-- The names ascend strictly. -/
def Ascending (dictionary : Dictionary α) : Prop :=
  dictionary.Pairwise fun first second => first.1 < second.1

/-- A name behind all others is added at the end. -/
theorem insert_of_forall_lt {dictionary : Dictionary α} {name : String} (value : α)
    (behind : ∀ held ∈ dictionary, held.1 < name) :
    insert name value dictionary = dictionary ++ [(name, value)] := by
  induction dictionary with
  | nil => rfl
  | cons held rest ih =>
      have ⟨first, others⟩ := List.forall_mem_cons.mp behind
      have notEqual : name ≠ held.1 := by
        rintro rfl
        exact String.lt_irrefl _ first
      rw [insert, if_neg (String.lt_asymm first), if_neg notEqual, ih others, List.cons_append]

theorem eq_or_mem_of_mem_insert {name : String} {value : α} {dictionary : Dictionary α}
    {pair : String × α} (member : pair ∈ insert name value dictionary) :
    pair = (name, value) ∨ pair ∈ dictionary := by
  induction dictionary with
  | nil => exact .inl (List.mem_singleton.mp member)
  | cons held rest ih =>
      rw [insert] at member
      split at member
      · exact List.mem_cons.mp member
      · split at member
        · exact (List.mem_cons.mp member).imp_right (List.mem_cons_of_mem held)
        · rcases List.mem_cons.mp member with rfl | later
          · exact .inr List.mem_cons_self
          · exact (ih later).imp_right (List.mem_cons_of_mem held)

theorem Ascending.insert {dictionary : Dictionary α} (ascending : dictionary.Ascending)
    (name : String) (value : α) : Ascending (insert name value dictionary) := by
  induction dictionary with
  | nil => exact List.pairwise_singleton _ _
  | cons held rest ih =>
      have ⟨first, others⟩ := List.pairwise_cons.mp ascending
      rw [Dictionary.insert]
      split
      · next before =>
          refine List.pairwise_cons.mpr ⟨?_, ascending⟩
          intro pair member
          rcases List.mem_cons.mp member with rfl | later
          · exact before
          · exact String.lt_trans before (first pair later)
      · next notBefore =>
          split
          · next equal =>
              subst equal
              exact List.pairwise_cons.mpr ⟨first, others⟩
          · next different =>
              refine List.pairwise_cons.mpr ⟨?_, ih others⟩
              intro pair member
              rcases eq_or_mem_of_mem_insert member with rfl | later
              · exact lt_of_le_of_ne (not_lt.mp notBefore) (Ne.symm different)
              · exact first pair later

/-- A new name joins the others. -/
theorem perm_insert {dictionary : Dictionary α} {name : String} (value : α)
    (absent : name ∉ dictionary.map Prod.fst) :
    (insert name value dictionary).Perm ((name, value) :: dictionary) := by
  induction dictionary with
  | nil => exact .refl _
  | cons held rest ih =>
      rw [List.map_cons, List.mem_cons, not_or] at absent
      rw [insert]
      split
      · exact .refl _
      · rw [if_neg absent.1]
        exact ((ih absent.2).cons held).trans (.swap _ _ _)

theorem ofPairs_concat (pairs : List (String × α)) (pair : String × α) :
    ofPairs (pairs ++ [pair]) = insert pair.1 pair.2 (ofPairs pairs) :=
  List.foldl_concat _ _ _ _

/-- Pairs whose names ascend are a dictionary already. -/
theorem ofPairs_of_ascending {pairs : List (String × α)} (ascending : Ascending pairs) :
    ofPairs pairs = pairs := by
  induction pairs using List.reverseRecOn with
  | nil => rfl
  | append_singleton pairs last ih =>
      obtain ⟨before, -, behind⟩ := List.pairwise_append.mp ascending
      have added := insert_of_forall_lt last.2 fun held member =>
        behind held member last List.mem_cons_self
      rw [ofPairs_concat, ih before, added]

theorem ascending_ofPairs (pairs : List (String × α)) : (ofPairs pairs).Ascending := by
  induction pairs using List.reverseRecOn with
  | nil => exact List.Pairwise.nil
  | append_singleton pairs last ih =>
      rw [ofPairs_concat]
      exact ih.insert last.1 last.2

/-- Pairs with distinct names are all there. -/
theorem perm_ofPairs {pairs : List (String × α)} (distinct : (pairs.map Prod.fst).Nodup) :
    (ofPairs pairs).Perm pairs := by
  induction pairs using List.reverseRecOn with
  | nil => exact .refl _
  | append_singleton pairs last ih =>
      rw [List.map_append, List.nodup_append] at distinct
      obtain ⟨distinctBefore, -, apart⟩ := distinct
      have before := ih distinctBefore
      have absent : last.1 ∉ (ofPairs pairs).map Prod.fst := by
        intro member
        exact apart _ ((before.map Prod.fst).mem_iff.mp member) _ List.mem_cons_self rfl
      rw [ofPairs_concat]
      calc
        (insert last.1 last.2 (ofPairs pairs)).Perm (last :: ofPairs pairs) :=
          perm_insert last.2 absent
        List.Perm _ (last :: pairs) := before.cons last
        List.Perm _ (pairs ++ [last]) := (List.perm_append_singleton last pairs).symm

theorem lookup_cons_eq (other : String) (pair : String × α) (rest : Dictionary α) :
    List.lookup other (pair :: rest) =
      if other = pair.1 then some pair.2 else rest.lookup other := by
  obtain ⟨first, held⟩ := pair
  by_cases same : other = first
  · rw [List.lookup_cons, beq_iff_eq.mpr same, if_pos same]
  · rw [List.lookup_cons, beq_eq_false_iff_ne.mpr same, if_neg same]

/-- A name is found with the value that it was given last. -/
theorem lookup_insert (other name : String) (value : α) (dictionary : Dictionary α) :
    List.lookup other (insert name value dictionary) =
      if other = name then some value else dictionary.lookup other := by
  induction dictionary with
  | nil => exact lookup_cons_eq other (name, value) []
  | cons held rest ih =>
      rw [insert]
      split
      · exact lookup_cons_eq other (name, value) (held :: rest)
      · split
        · next equal =>
            rw [lookup_cons_eq, lookup_cons_eq, equal]
            split
            · rfl
            · rfl
        · next different =>
            rw [lookup_cons_eq, lookup_cons_eq, ih]
            by_cases isHeld : other = held.1
            · rw [if_pos isHeld, if_neg (fun isName => different (isName.symm.trans isHeld)),
                if_pos isHeld]
            · rw [if_neg isHeld, if_neg isHeld]

/-- Each name is found with its value. -/
theorem lookup_eq_some_of_mem {dictionary : Dictionary α} (ascending : dictionary.Ascending)
    {pair : String × α} (member : pair ∈ dictionary) :
    dictionary.lookup pair.1 = some pair.2 := by
  induction dictionary with
  | nil => contradiction
  | cons held rest ih =>
      have ⟨first, others⟩ := List.pairwise_cons.mp ascending
      rw [lookup_cons_eq]
      rcases List.mem_cons.mp member with rfl | later
      · exact if_pos rfl
      · rw [if_neg (ne_of_gt (first pair later))]
        exact ih others later

end StackDebugger.Dictionary
