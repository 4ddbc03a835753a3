import RecordRules.Command.Run
import RecordRules.Proofs.Stored

/-!
What is read is stored data: no text of JSON gives an object with two members of one name,
so that every record that a command loads is the record of such an object.
-/

namespace RecordRules

namespace Json

lemma length_of_skipBlanks {cs r : List Char} {c : Char} (h : skipBlanks cs = c :: r) :
    r.length < cs.length := by
  have hle := length_skipBlanks_le cs
  rw [h, List.length_cons] at hle
  omega

lemma distinct_readWord {c : Char} {cs : List Char} {j : Json} {s : Shorter (c :: cs)}
    (h : readWord c cs = some (j, s)) : j.Distinct := by
  unfold readWord at h
  obtain ⟨w, hw, he⟩ := Option.map_eq_some_iff.1 h
  cases he
  have hm := List.mem_of_find?_eq_some hw
  have hall : ∀ w ∈ words, w.2.Distinct := by simp [words, Distinct]
  exact hall w hm

lemma distinct_readNumber {c : Char} {cs : List Char} {j : Json} {s : Shorter (c :: cs)}
    (h : readNumber c cs = some (j, s)) : j.Distinct := by
  unfold readNumber at h
  split at h
  · cases h
  · obtain ⟨x, -, he⟩ := Option.map_eq_some_iff.1 h
    cases he
    trivial

-- the cases are those of the readers, and so is the measure: the lengths are stated for it
mutual

theorem distinct_readValue {room : ℕ} {cs : List Char} {j : Json} {s : Shorter cs}
    (h : readValue room cs = some (j, s)) : j.Distinct := by
  rw [readValue] at h
  split at h
  · cases h
  · next c r hs =>
    have hr : r.length < cs.length := length_of_skipBlanks hs
    split at h
    · split at h
      · cases h
      · cases h
        trivial
    · split at h
      · split at h
        · cases h
        · split at h
          · cases h
          · next hi =>
            cases h
            exact eachDistinct_iff.2 (distinct_readItems hi)
      · split at h
        · split at h
          · cases h
          · split at h
            · cases h
            · next hm =>
              cases h
              exact distinct_ofMembers (distinct_readMembers hm)
        · split at h
          · obtain ⟨p, hp, he⟩ := Option.map_eq_some_iff.1 h
            cases he
            exact distinct_readNumber hp
          · obtain ⟨p, hp, he⟩ := Option.map_eq_some_iff.1 h
            cases he
            exact distinct_readWord hp
termination_by 4 * cs.length

theorem distinct_readItems {room : ℕ} {cs : List Char} {js : List Json} {s : Shorter cs}
    (h : readItems room cs = some (js, s)) : ∀ j ∈ js, j.Distinct := by
  rw [readItems] at h
  split at h
  · cases h
  · split at h
    · cases h
      simp
    · exact distinct_readMoreItems h
termination_by 4 * cs.length + 2

theorem distinct_readMoreItems {room : ℕ} {cs : List Char} {js : List Json} {s : Shorter cs}
    (h : readMoreItems room cs = some (js, s)) : ∀ j ∈ js, j.Distinct := by
  rw [readMoreItems] at h
  split at h
  · cases h
  · next j r hlt hj =>
    have hd : j.Distinct := distinct_readValue hj
    split at h
    · cases h
    · next c r' hs =>
      have hr : r'.length < r.length := length_of_skipBlanks hs
      split at h
      · cases h
        exact List.forall_mem_singleton.2 hd
      · split at h
        · split at h
          · cases h
          · next hm =>
            cases h
            exact List.forall_mem_cons.2 ⟨hd, distinct_readMoreItems hm⟩
        · cases h
termination_by 4 * cs.length + 1

theorem distinct_readMembers {room : ℕ} {cs : List Char} {ms : List (String × Json)}
    {s : Shorter cs} (h : readMembers room cs = some (ms, s)) : ∀ m ∈ ms, m.2.Distinct := by
  rw [readMembers] at h
  split at h
  · cases h
  · split at h
    · cases h
      simp
    · exact distinct_readMoreMembers h
termination_by 4 * cs.length + 2

theorem distinct_readMoreMembers {room : ℕ} {cs : List Char} {ms : List (String × Json)}
    {s : Shorter cs} (h : readMoreMembers room cs = some (ms, s)) : ∀ m ∈ ms, m.2.Distinct := by
  rw [readMoreMembers] at h
  split at h
  · cases h
  · next c r hs =>
    have hr : r.length < cs.length := length_of_skipBlanks hs
    split at h
    · split at h
      · cases h
      · next name r₁ h₁ hq =>
        split at h
        · cases h
        · next d r₂ hs₁ =>
          have hr₂ : r₂.length < r₁.length := length_of_skipBlanks hs₁
          split at h
          · split at h
            · cases h
            · next j r₃ h₃ hj =>
              have hd : j.Distinct := distinct_readValue hj
              split at h
              · cases h
              · next e r₄ hs₃ =>
                have hr₄ : r₄.length < r₃.length := length_of_skipBlanks hs₃
                split at h
                · cases h
                  exact List.forall_mem_singleton.2 hd
                · split at h
                  · split at h
                    · cases h
                    · next hm =>
                      cases h
                      exact List.forall_mem_cons.2 ⟨hd, distinct_readMoreMembers hm⟩
                  · cases h
          · cases h
    · cases h
termination_by 4 * cs.length

end

theorem distinct_read {text : String} {j : Json} (h : read text = some j) : j.Distinct := by
  unfold read at h
  split at h
  · cases h
  · next hj =>
    split at h
    · cases h
      exact distinct_readValue hj
    · cases h

end Json

/-- Every record that a command loads is stored data. -/
theorem Command.stored_load {file : String → Option String} {record : String} {r : Record}
    (h : load file record = .ok r) : r.Stored := by
  unfold load at h
  dsimp only at h
  split at h
  · cases h
  · split at h
    · cases h
    · next ms hms =>
      cases h
      exact .json ms (Json.distinct_read hms)
    · cases h

end RecordRules
