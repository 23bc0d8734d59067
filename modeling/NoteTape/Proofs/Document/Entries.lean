/-
  NoteTape.Proofs.Document.Entries

  The entries that the tokens of a mapping give: those the mapping was written with.
  A value is read off its tokens up to the next token of the mapping, an entry is two
  values, and the entries are read one after another.
-/

import NoteTape.Document.Reader
import NoteTape.Proofs.Document.Mapping

namespace NoteTape.Document

/-- A scalar without a tag. -/
def Value.IsUntagged (v : Value) : Prop := ∃ s, v = .scalar s ∧ s.tag = none

variable {v : Value} {e : Entry} {entries : List Entry} {t : Token} {rest : List Token} {i : Input}

/-- A scalar is read off its tokens, or off nothing where nothing is written. -/
theorem readOptional_tokens (limit : Nat) (untagged : v.IsUntagged) (ends : t ∈ blockEnds)
    (tokens : i.tokens = v.tokens ++ t :: rest) :
    readOptional (limit + 3) .mapping blockEnds i = some (v, i.past (t :: rest)) := by
  obtain ⟨s, rfl, noTag⟩ := untagged
  by_cases none : s = {}
  · have nothing : (Value.scalar s).tokens = [] := if_pos none
    rw [nothing, List.nil_append] at tokens
    have here : (i.tokens.head?.any blockEnds.contains) = true := by
      rw [tokens]
      simpa using ends
    rw [readOptional, if_pos here, none, ← tokens]
    rfl
  · have written : (Value.scalar s).tokens = [.scalar s.style s.text] := if_neg none
    rw [written, List.singleton_append] at tokens
    have other : (i.tokens.head?.any blockEnds.contains) = false := by
      rw [tokens]
      simp [blockEnds]
    have bare : Properties.read i = some ({}, i) := by
      rw [Properties.read, tokens]
    have whole : ({ style := s.style, text := s.text } : Scalar) = s := by rw [← noTag]
    have node : readNode (limit + 1) .mapping i = some (.scalar s, i.past (t :: rest)) := by
      rw [readNode, bare]
      simp only [tokens]
      exact congrArg (fun s => some (Node.scalar s, i.past (t :: rest))) whole
    have value : readValue (limit + 2) .mapping i = some (.scalar s, i.past (t :: rest)) := by
      rw [readValue, tokens]
      simp only [node]
      rfl
    rw [readOptional, if_neg (by simp [other]), value]

/-- The entries of a mapping are read one after another. -/
theorem readEntries_tokens {limit : Nat}
    (untagged : ∀ e ∈ entries, e.1.IsUntagged ∧ e.2.IsUntagged)
    (enough : entries.length + 5 ≤ limit) (read : List Entry)
    (tokens : i.tokens = entries.flatMap entryTokens ++ .blockEnd :: rest) :
    readEntries limit read i = some (read.reverse ++ entries, i.past rest) := by
  induction entries generalizing limit read i with
  | nil =>
    obtain ⟨below, rfl⟩ : ∃ below, limit = below + 1 := ⟨limit - 1, by omega⟩
    rw [readEntries, tokens, List.append_nil]
    rfl
  | cons e entries ih =>
    rw [List.length_cons] at enough
    obtain ⟨below, rfl⟩ : ∃ below, limit = below + 5 := ⟨limit - 5, by omega⟩
    obtain ⟨key, value⟩ := e
    obtain ⟨⟨plainKey, plainValue⟩, untagged⟩ := List.forall_mem_cons.mp untagged
    obtain ⟨t, more, next, ends⟩ : ∃ t more,
        entries.flatMap entryTokens ++ .blockEnd :: rest = t :: more ∧ t ∈ blockEnds := by
      cases entries with
      | nil => exact ⟨_, _, rfl, by decide⟩
      | cons e entries => exact ⟨_, _, rfl, by decide⟩
    have keyTokens : i.tokens = .key :: (key.tokens ++ .value :: (value.tokens ++ t :: more)) := by
      rw [tokens, List.flatMap_cons, List.append_assoc, next]
      simp [entryTokens]
    have readKey : readOptional (below + 4) .mapping blockEnds
        (i.past (key.tokens ++ .value :: (value.tokens ++ t :: more))) =
        some (key, i.past (.value :: (value.tokens ++ t :: more))) :=
      readOptional_tokens (below + 1) plainKey (by decide) rfl
    have readValue : readBehindColon (below + 4) .mapping blockEnds
        (i.past (.value :: (value.tokens ++ t :: more))) = some (value, i.past (t :: more)) := by
      rw [readBehindColon]
      exact readOptional_tokens below plainValue ends rfl
    rw [readEntries, keyTokens]
    simp only [readKey, readValue]
    rw [ih untagged (by omega) ((key, value) :: read) next.symm, List.reverse_cons,
      List.append_assoc, List.singleton_append]
    rfl

theorem Spelled.isUntagged {written : List Char} {s : Scalar} (h : Spelled written s) :
    (Value.scalar s).IsUntagged := by
  cases h <;> exact ⟨_, rfl, rfl⟩

theorem EntryLine.isUntagged {line : List Char} (h : EntryLine line e) :
    e.1.IsUntagged ∧ e.2.IsUntagged := by
  cases h with
  | value begins _ spelled => exact ⟨begins.spelled.isUntagged, spelled.isUntagged⟩
  | nothing begins => exact ⟨begins.spelled.isUntagged, _, rfl, rfl⟩

theorem EntryLines.isUntagged {column : Nat} {text : List Char}
    (h : EntryLines column text entries) : ∀ e ∈ entries, e.1.IsUntagged ∧ e.2.IsUntagged := by
  induction h with
  | last written => simpa using written.isUntagged
  | more written _ _ _ ih => exact List.forall_mem_cons.mpr ⟨written.isUntagged, ih⟩

theorem Mapping.isUntagged {text : List Char} (h : Mapping text entries) :
    ∀ e ∈ entries, e.1.IsUntagged ∧ e.2.IsUntagged := by
  cases h with
  | plain _ written => exact written.isUntagged
  | marked _ _ _ written => exact written.isUntagged

theorem length_le_length_flatMap_entryTokens (entries : List Entry) :
    entries.length ≤ (entries.flatMap entryTokens).length := by
  induction entries with
  | nil => exact Nat.le_refl _
  | cons e entries ih =>
    simp only [List.flatMap_cons, List.length_append, List.length_cons, entryTokens]
    omega

/-- The limit for a document is above the depth that its entries need. -/
theorem length_add_five_le (entries : List Entry) :
    entries.length + 5 ≤ 4 * (mappingTokens entries).length + 3 := by
  have short := length_le_length_flatMap_entryTokens entries
  simp only [mappingTokens, List.length_cons, List.length_append]
  omega

theorem readNode_mapping (untagged : ∀ e ∈ entries, e.1.IsUntagged ∧ e.2.IsUntagged)
    (tokens : i.tokens = mappingTokens entries) :
    readNode (enough (mappingTokens entries)) .block i = some (.mapping entries, i.past []) := by
  have bare : Properties.read i = some ({}, i) := by
    rw [Properties.read, tokens, mappingTokens]
  have read : readEntries (4 * (mappingTokens entries).length + 3) []
      (i.past (entries.flatMap entryTokens ++ [.blockEnd])) = some (entries, i.past []) :=
    readEntries_tokens untagged (length_add_five_le entries) [] rfl
  rw [mappingTokens] at tokens read ⊢
  rw [enough, readNode, bare]
  simp only [tokens]
  rw [if_neg (by decide)]
  exact congrArg (Option.map fun read => (Node.mapping read.1, read.2)) read

/-- A document that is a mapping has the entries the mapping is written with. -/
theorem readDocument_mapping {marker : List Token}
    (marked : marker = [] ∨ marker = [.documentStart])
    (untagged : ∀ e ∈ entries, e.1.IsUntagged ∧ e.2.IsUntagged) :
    ∃ i : Input, readDocument (marker ++ mappingTokens entries) = some (.mapping entries, i) ∧
      i.tokens = [] := by
  have node : readNode (enough (mappingTokens entries)) .block
      ⟨mappingTokens entries, [], standardHandles⟩ =
      some (.mapping entries, ⟨[], [], standardHandles⟩) := readNode_mapping untagged rfl
  refine ⟨⟨[], [], standardHandles⟩, ?_, rfl⟩
  rw [mappingTokens] at node ⊢
  obtain rfl | rfl := marked
  · exact (if_pos rfl).trans node
  · exact node

/-- The text of a mapping has the entries the mapping is written with. -/
theorem entriesOf?_of_mapping {text : List Char} (allowed : text.all isAllowed = true)
    (written : Mapping (unifyBreaks text) entries) : entriesOf? text = some entries := by
  obtain ⟨marker, marked, tokens⟩ := tokensOf?_of_mapping allowed written
  obtain ⟨i, read, none_left⟩ := readDocument_mapping marked written.isUntagged
  obtain ⟨first, more, shown⟩ : ∃ first more, marker ++ mappingTokens entries = first :: more := by
    obtain rfl | rfl := marked
    · exact ⟨_, _, rfl⟩
    · exact ⟨_, _, rfl⟩
  rw [shown] at tokens read
  rw [entriesOf?, tokens]
  simp only [read]
  rw [none_left, List.all_nil, if_pos rfl]
  rfl

end NoteTape.Document
