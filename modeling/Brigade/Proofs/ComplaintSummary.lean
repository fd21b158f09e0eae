/-
What a tree of complaints is told as, whatever its shape.

Complaints are told by their messages. `Complaint.HasMessage` tells which messages are in a tree: those of its leaves,
however deep, and for a leaf without one that its field is invalid. The list that is told is in the order of bytes,
strictly, so it is the only one with these messages (`Lists.unique`).
- `complaints_told`: the failure of a tree joins that list; so trees with the same messages have the same failure,
  whatever they are nested in, how often they say something, and in which order their fields come.

Texts are compared character by character. That this is the order of their bytes (`utf8_lt_iff`) is due to the encoding:
the longer form of a greater character starts with a greater byte.
-/
import Mathlib.Data.List.Destutter
import Mathlib.Data.List.Sort
import Mathlib.Data.String.Basic
import Mathlib.Tactic
import Brigade.Validation

namespace Brigade

/-! ## The order of bytes -/

namespace Text

/-- the bytes of a text -/
def utf8 (s : String) : List UInt8 := s.toUTF8.data.toList

theorem utf8_eq (s : String) : utf8 s = s.toList.flatMap String.utf8EncodeChar := by
  rw [utf8, String.toUTF8, ← String.utf8Encode_toList, List.utf8Encode, List.data_toByteArray]

/-- bytes are compared by the first one in which they differ -/
theorem byte_cons_lt {a b : Nat} {as bs : List UInt8} (hb : b < 256) (hle : a ≤ b) (h : a = b → as < bs) :
    UInt8.ofNat a :: as < UInt8.ofNat b :: bs := by
  rw [List.cons_lt_cons_iff]
  rcases hle.lt_or_eq with hlt | rfl
  · left
    rw [UInt8.lt_iff_toNat_lt, UInt8.toNat_ofNat_of_lt' hb, UInt8.toNat_ofNat_of_lt' (hlt.trans hb)]
    exact hlt
  · exact .inr ⟨rfl, h rfl⟩

/-- the bytes of a greater character are greater, whatever follows -/
theorem encodeChar_lt {c d : Char} (h : c < d) (cs ds : List UInt8) :
    String.utf8EncodeChar c ++ cs < String.utf8EncodeChar d ++ ds := by
  have hlt : c.val.toNat < d.val.toNat := h
  have hd : d.val.toNat < 0x110000 := by
    have hvalid : d.val.toNat.isValidChar := d.valid
    rcases hvalid with hlow | hhigh
    · omega
    · exact hhigh.2
  unfold String.utf8EncodeChar
  generalize c.val.toNat = m at hlt
  generalize d.val.toNat = n at hlt hd
  -- four lengths on either side; a shorter form never belongs to the greater character
  dsimp only
  split_ifs <;> simp only [List.cons_append, List.nil_append] <;>
    (repeat refine byte_cons_lt (by omega) (by omega) fun _ => ?_) <;> omega

theorem flatMap_lt {cs ds : List Char} (h : cs < ds) :
    cs.flatMap String.utf8EncodeChar < ds.flatMap String.utf8EncodeChar := by
  induction cs generalizing ds with
  | nil =>
    cases ds with
    | nil => exact absurd h (List.lt_irrefl _)
    | cons d ds =>
      obtain ⟨b, bs, hb⟩ := List.exists_cons_of_ne_nil (String.utf8EncodeChar_ne_nil (c := d))
      rw [List.flatMap_cons, hb]
      exact List.nil_lt_cons ..
  | cons c cs ih =>
    cases ds with
    | nil => exact absurd h (List.not_lt_nil _)
    | cons d ds =>
      rw [List.flatMap_cons, List.flatMap_cons]
      rcases List.cons_lt_cons_iff.1 h with hlt | ⟨rfl, hrest⟩
      · exact encodeChar_lt hlt _ _
      · exact List.append_left_lt (ih hrest)

/-- **The order of texts is that of their bytes.** -/
theorem utf8_lt_iff {s t : String} : utf8 s < utf8 t ↔ s < t := by
  have himp : ∀ {s t : String}, s < t → utf8 s < utf8 t := by
    intro s t h
    rw [utf8_eq, utf8_eq]
    exact flatMap_lt (String.lt_iff_toList_lt.1 h)
  refine ⟨fun h => ?_, himp⟩
  rcases lt_trichotomy s t with hlt | rfl | hgt
  · exact hlt
  · exact absurd h (List.lt_irrefl _)
  · exact absurd h (List.lt_asymm (himp hgt))

end Text

/-! ## What a tree says -/

namespace Complaint

/-- a leaf of the complaint, at any depth, has this message, or none and this is said of its field -/
inductive HasMessage : Complaint → String → Prop where
  | own {field text : String} {messages : List (Option String)} (leaf : some text ∈ messages) :
    HasMessage (.leaves field messages) text
  | unnamed {field : String} {messages : List (Option String)} (leaf : none ∈ messages) :
    HasMessage (.leaves field messages) (field ++ " is invalid")
  | inner {field text : String} {complaints : List Complaint} {c : Complaint} (member : c ∈ complaints)
    (deep : HasMessage c text) : HasMessage (.inner field complaints) text
  | element {field text : String} {elements : List (Nat × List Complaint)} {n : Nat} {complaints : List Complaint}
    {c : Complaint} (element : (n, complaints) ∈ elements) (member : c ∈ complaints) (deep : HasMessage c text) :
    HasMessage (.elements field elements) text

variable {field text : String}

theorem hasMessage_leaves_iff {messages : List (Option String)} :
    HasMessage (.leaves field messages) text ↔ ∃ m ∈ messages, leafMessage field m = text := by
  constructor
  · intro h
    cases h with
    | own leaf => exact ⟨_, leaf, rfl⟩
    | unnamed leaf => exact ⟨_, leaf, rfl⟩
  · rintro ⟨m, hm, rfl⟩
    cases m with
    | none => exact .unnamed hm
    | some text => exact .own hm

theorem hasMessage_inner_iff {complaints : List Complaint} :
    HasMessage (.inner field complaints) text ↔ ∃ c ∈ complaints, HasMessage c text := by
  constructor
  · intro h
    cases h with
    | inner member deep => exact ⟨_, member, deep⟩
  · rintro ⟨c, hc, h⟩
    exact .inner hc h

theorem hasMessage_elements_iff {elements : List (Nat × List Complaint)} :
    HasMessage (.elements field elements) text ↔ ∃ e ∈ elements, ∃ c ∈ e.2, HasMessage c text := by
  constructor
  · intro h
    cases h with
    | element element member deep => exact ⟨_, element, _, member, deep⟩
  · rintro ⟨⟨n, complaints⟩, he, c, hc, h⟩
    exact .element he hc h

-- one induction over trees, lists of trees and lists of elements
mutual
theorem mem_messages_iff : ∀ c : Complaint, text ∈ c.messages ↔ HasMessage c text
  | .leaves field ms => by rw [messages, List.mem_map, hasMessage_leaves_iff]
  | .inner field cs => by rw [messages, hasMessage_inner_iff, mem_messagesOfAll_iff]
  | .elements field es => by rw [messages, hasMessage_elements_iff, mem_messagesOfElements_iff]

theorem mem_messagesOfAll_iff : ∀ cs : List Complaint, text ∈ messagesOfAll cs ↔ ∃ c ∈ cs, HasMessage c text
  | [] => by simp [messagesOfAll]
  | c :: cs => by rw [messagesOfAll, List.mem_append, mem_messages_iff, mem_messagesOfAll_iff, List.exists_mem_cons_iff]

theorem mem_messagesOfElements_iff :
    ∀ es : List (Nat × List Complaint), text ∈ messagesOfElements es ↔ ∃ e ∈ es, ∃ c ∈ e.2, HasMessage c text
  | [] => by simp [messagesOfElements]
  | (n, cs) :: es => by
    rw [messagesOfElements, List.mem_append, mem_messagesOfAll_iff, mem_messagesOfElements_iff, List.exists_mem_cons_iff]
end

end Complaint

/-! ## What is told of it -/

/-- dropping the repetitions of neighbours, as the library's lemmas have it -/
theorem eraseReps_eq_destutter {α : Type} [DecidableEq α] (as : List α) : as.eraseReps = as.destutter (· ≠ ·) := by
  have hloop : ∀ (as : List α) a acc,
      List.eraseRepsBy.loop (· == ·) a as acc = acc.reverse ++ as.destutter' (· ≠ ·) a := by
    intro as
    induction as with
    | nil => simp [List.eraseRepsBy.loop]
    | cons b as ih =>
      intro a acc
      rw [List.eraseRepsBy.loop, List.destutter'_cons]
      by_cases h : a = b
      · simp [h, ih]
      · simp [h, ih, beq_false_of_ne h]
  cases as with
  | nil => rfl
  | cons a as => exact hloop as a []

namespace Validation

variable {t : String} {ss ts : List String} {cs : List Complaint}

theorem pairwise_mergeSort_le (ss : List String) : ss.mergeSort.Pairwise (· ≤ ·) := List.pairwise_mergeSort' (· ≤ ·) ss

/-- of sorted texts, repetitions stand side by side, so that no other ones are left -/
theorem distinctSorted_eq_dedup (ss : List String) : distinctSorted ss = ss.mergeSort.dedup := by
  rw [distinctSorted, eraseReps_eq_destutter, (pairwise_mergeSort_le ss).destutter_eq_dedup]

theorem mem_distinctSorted : t ∈ distinctSorted ss ↔ t ∈ ss := by
  rw [distinctSorted_eq_dedup, List.mem_dedup, List.mem_mergeSort]

theorem pairwise_distinctSorted (ss : List String) : (distinctSorted ss).Pairwise (· < ·) := by
  rw [distinctSorted_eq_dedup]
  have hsorted : ss.mergeSort.dedup.Pairwise (· ≤ ·) := (pairwise_mergeSort_le ss).sublist (List.dedup_sublist _)
  exact (hsorted.and (List.nodup_dedup _)).imp fun h => lt_of_le_of_ne h.1 h.2

/-- some complaint of the tree has the message -/
def Reports (cs : List Complaint) (t : String) : Prop := ∃ c ∈ cs, c.HasMessage t

/-- the messages of the tree, in the order of their bytes, none of them twice -/
structure Lists (cs : List Complaint) (ts : List String) : Prop where
  increasing : (ts.map Text.utf8).Pairwise (· < ·)
  complete : ∀ t, t ∈ ts ↔ Reports cs t

theorem Lists.pairwise (h : Lists cs ts) : ts.Pairwise (· < ·) :=
  (List.pairwise_map.1 h.increasing).imp Text.utf8_lt_iff.1

/-- there is no other list with these messages -/
theorem Lists.unique {us : List String} (h : Lists cs ts) (h' : Lists cs us) : us = ts := by
  refine List.Perm.eq_of_pairwise (fun _ _ _ _ hlt hgt => absurd hgt hlt.asymm) h'.pairwise h.pairwise ?_
  refine (List.perm_ext_iff_of_nodup (h'.pairwise.imp ne_of_lt) (h.pairwise.imp ne_of_lt)).2 fun t => ?_
  rw [h'.complete, h.complete]

theorem lists_distinctSorted (cs : List Complaint) : Lists cs (distinctSorted (Complaint.messagesOfAll cs)) where
  increasing := List.pairwise_map.2 ((pairwise_distinctSorted _).imp Text.utf8_lt_iff.2)
  complete _ := mem_distinctSorted.trans (Complaint.mem_messagesOfAll_iff cs)

/-- **What a tree of complaints is told as.** There is exactly one list of the messages in the tree that is strictly
increasing in the order of bytes, and the text of the tree joins it; the failure of a tree with complaints has that text.
Trees with the same messages have the same text. -/
theorem complaints_told (cs : List Complaint) :
    ∃ ts : List String,
      Lists cs ts ∧ (∀ us, Lists cs us → us = ts) ∧
      summary cs = "; ".intercalate ts ∧
      failure? cs = (if cs.isEmpty then none else some (.validation ("; ".intercalate ts))) ∧
      ∀ cs' : List Complaint, (∀ t, Reports cs' t ↔ Reports cs t) → summary cs' = summary cs := by
  have hlists := lists_distinctSorted cs
  refine ⟨_, hlists, fun us hus => hlists.unique hus, rfl, rfl, fun cs' hsame => ?_⟩
  have hlists' : Lists cs (distinctSorted (Complaint.messagesOfAll cs')) :=
    { lists_distinctSorted cs' with
      complete := fun t => ((lists_distinctSorted cs').complete t).trans (hsame t) }
  exact congrArg ("; ".intercalate ·) (hlists.unique hlists')

/-- the same is said of a quantity at two depths, and a code and a weight are complained about without words -/
def scattered : List Complaint :=
  [.elements "list" [(1, [.leaves "quantity" [some "Quantity must be positive"], .leaves "weight" [none]])],
    .leaves "code" [none], .inner "inner" [.leaves "quantity" [some "Quantity must be positive"]]]

/-- the same messages, side by side and in another order -/
def gathered : List Complaint :=
  [.leaves "weight" [none], .leaves "quantity" [some "Quantity must be positive"], .leaves "code" [none]]

/-- both are told in the order of bytes, in which capitals come first, and each message once -/
theorem complaints_told_scattered :
    failure? scattered = some (.validation "Quantity must be positive; code is invalid; weight is invalid") ∧
    summary gathered = summary scattered := by
  obtain ⟨ts, -, hunique, -, hfailure, hsame⟩ := complaints_told scattered
  have hlists : Lists scattered ["Quantity must be positive", "code is invalid", "weight is invalid"] := by
    refine ⟨?_, fun t => ?_⟩
    · rw [List.pairwise_map]
      exact (show List.Pairwise (· < ·) _ by decide).imp Text.utf8_lt_iff.2
    · simp [Reports, scattered, Complaint.hasMessage_leaves_iff, Complaint.hasMessage_inner_iff,
        Complaint.hasMessage_elements_iff, Complaint.leafMessage]
      grind
  refine ⟨?_, hsame gathered fun t => ?_⟩
  · rw [hfailure, ← hunique _ hlists]
    rfl
  · simp [Reports, scattered, gathered, Complaint.hasMessage_leaves_iff, Complaint.hasMessage_inner_iff,
      Complaint.hasMessage_elements_iff, Complaint.leafMessage]
    grind

end Validation

end Brigade
