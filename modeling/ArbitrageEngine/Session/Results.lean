import ArbitrageEngine.Session.Replay

/-!
# The fields of a replay's result

`src/session/session.cpp`: `result` at the end of `replay`. No key is assigned twice, so every
field is found as it was written.
-/

namespace ArbitrageEngine.Sessions

open Base ArbitrageEngine.Core Coinbase Json Kraken Pipeline Recording

/-- The texts and values that go into a result. -/
structure ResultParts (env : Surroundings) (session : OpenSession) (branch : Branch) where
  sessionId : Value
  configHash : Value
  bookText : Bytes
  transitionText : Bytes
  canonical : Bytes
  session_eq : session.manifest.atKey (ascii "session_id") = .ok sessionId
  config_eq : session.manifest.atKey (ascii "configuration_hash") = .ok configHash
  book_eq : dump none (contentsValue branch.contents) = .ok bookText
  transition_eq : dump none branch.transitions = .ok transitionText
  canonical_eq : dump none (objectOf
    ((resultFields env session branch sessionId configHash bookText transitionText).filter
      (fun field ↦ field.1 ∉ [ascii "source_session_id", ascii "source_manifest_sha256"]) ++
        [(ascii "final_book", contentsValue branch.contents)])) = .ok canonical

namespace ResultParts

variable {env : Surroundings} {session : OpenSession} {branch : Branch}

/-- The fields of the result except its own hash and the book. -/
def fields (parts : ResultParts env session branch) : List (Bytes × Value) :=
  resultFields env session branch parts.sessionId parts.configHash parts.bookText
    parts.transitionText

/-- The fields of the result. -/
def allFields (parts : ResultParts env session branch) (includeFinalBook : Bool) :
    List (Bytes × Value) :=
  parts.fields ++ [(ascii "deterministic_result_hash", .string (env.sha256 parts.canonical))] ++
    if includeFinalBook then [(ascii "final_book", contentsValue branch.contents)] else []

/-- The result. -/
def result (parts : ResultParts env session branch) (includeFinalBook : Bool) : Value :=
  objectOf (parts.allFields includeFinalBook)

end ResultParts

variable {env : Surroundings} {session : OpenSession} {branch : Branch} {includeFinalBook : Bool}

/-- A result has its parts, and its text can be published. -/
theorem replayResult_ok {result : Value}
    (h : replayResult env includeFinalBook session branch = .ok result) :
    ∃ parts : ResultParts env session branch,
      result = parts.result includeFinalBook ∧ ∃ text, publish result = .ok text := by
  unfold replayResult at h
  obtain ⟨sessionId, hsession, h⟩ := bind_ok h
  obtain ⟨configHash, hconfig, h⟩ := bind_ok h
  obtain ⟨bookText, hbook, h⟩ := bind_ok h
  obtain ⟨transitionText, htransition, h⟩ := bind_ok h
  obtain ⟨canonical, hcanonical, h⟩ := bind_ok h
  obtain ⟨text, htext, h⟩ := bind_ok h
  cases h
  exact ⟨⟨sessionId, configHash, bookText, transitionText, canonical, hsession, hconfig, hbook,
    htransition, hcanonical⟩, rfl, text, htext⟩

/-! ### Keys -/

/-- The keys of every result, with the two that are added at the end. -/
def commonKeys : List Bytes :=
  [ascii "format_version", ascii "source_session_id", ascii "source_manifest_sha256",
    ascii "source_raw_sha256", ascii "configuration_hash", ascii "complete_source",
    ascii "research_valid", ascii "messages_read", ascii "final_book_state",
    ascii "final_bid_levels", ascii "final_ask_levels", ascii "final_best_bid",
    ascii "final_best_ask", ascii "final_book_hash", ascii "state_transitions",
    ascii "state_transition_hash"]

/-- The keys that only the results of a venue have. -/
def venueKeys : KnownVenue → List Bytes
  | .coinbase =>
    [ascii "outcomes", ascii "book_messages", ascii "ignored_messages", ascii "snapshots",
      ascii "updates", ascii "sequence_gaps", ascii "connection_boundaries",
      ascii "final_sequence"]
  | .kraken => [ascii "outcomes", ascii "metrics", ascii "checksum", ascii "final_sequence"]

private theorem nodup_keys (venue : KnownVenue) :
    (commonKeys ++ venueKeys venue ++
      [ascii "deterministic_result_hash", ascii "final_book"]).Nodup := by
  cases venue <;> decide +kernel

/-- The venue of a branch. -/
def Branch.venue : Branch → KnownVenue
  | coinbase _ => .coinbase
  | kraken _ => .kraken

namespace ResultParts

private theorem keys_fields (parts : ResultParts env session branch) :
    parts.fields.map Prod.fst = commonKeys ++ venueKeys branch.venue := by
  cases branch <;> rfl

private theorem nodup_allFields (parts : ResultParts env session branch) (includeFinalBook : Bool) :
    ((parts.allFields includeFinalBook).map Prod.fst).Nodup := by
  apply List.Nodup.sublist _ (nodup_keys branch.venue)
  rw [allFields, List.map_append, List.map_append, keys_fields, List.append_assoc]
  apply (List.Sublist.refl _).append
  cases includeFinalBook
  · exact .cons_cons _ (List.nil_sublist _)
  · exact .refl _

/-- Every field is found as it was written. -/
theorem find?_result (parts : ResultParts env session branch) {key : Bytes} {item : Value}
    (h : (key, item) ∈ parts.allFields includeFinalBook) :
    (parts.result includeFinalBook).find? key = some item :=
  find?_objectOf (parts.nodup_allFields includeFinalBook) h

/-- A field by its place in the list. -/
theorem find?_fields (parts : ResultParts env session branch) {key : Bytes} {item : Value} (i : Nat)
    (h : parts.fields[i]? = some (key, item)) :
    (parts.result includeFinalBook).find? key = some item := by
  apply parts.find?_result
  unfold allFields
  rw [List.append_assoc]
  exact List.mem_append_left _ (List.mem_of_getElem? h)

end ResultParts

end ArbitrageEngine.Sessions
