/-
A series key stands for one series.

Every part of the key has its length in front, so the key is read in one way only.
-/
import GenaiBridge.Bridge.Emit
import GenaiBridge.Lib.Decimal
import GenaiBridge.Lib.SelfDelimiting

namespace GenaiBridge

variable {V : Type}

private theorem toList_append_inj {s t : String} (hsize : s.utf8ByteSize = t.utf8ByteSize)
    {x y : List Char} (h : s.toList ++ x = t.toList ++ y) : s = t ∧ x = y := by
  -- what the longer one has more takes no room
  have hmore : ∀ {s t : String} {c : List Char}, s.utf8ByteSize = t.utf8ByteSize →
      t.toList = s.toList ++ c → c = [] := by
    intro s t c hsize hc
    have ht : t = s ++ String.ofList c := by
      rw [← String.toList_inj, hc, String.toList_append, String.toList_ofList]
    rw [ht, String.utf8ByteSize_append] at hsize
    have hempty : String.ofList c = "" := String.utf8ByteSize_eq_zero_iff.mp (by omega)
    rw [← String.toList_ofList (l := c), hempty]
    rfl
  rcases List.append_eq_append_iff.mp h with ⟨c, hc, hx⟩ | ⟨c, hc, hy⟩
  · obtain rfl := hmore hsize hc
    exact ⟨String.toList_inj.mp (by simpa using hc.symm), by simpa using hx⟩
  · obtain rfl := hmore hsize.symm hc
    exact ⟨String.toList_inj.mp (by simpa using hc), by simpa using hy.symm⟩

private theorem toList_lengthPrefixed (s : String) :
    (lengthPrefixed s).toList = Nat.toDigits 10 s.utf8ByteSize ++ ':' :: s.toList := by
  simp [lengthPrefixed]

theorem selfDelimiting_lengthPrefixed :
    Lib.SelfDelimiting fun s : String => (lengthPrefixed s).toList where
  ne_nil s hnil := by simp [toList_lengthPrefixed] at hnil
  append_inj h := by
    simp only [toList_lengthPrefixed, List.append_assoc, List.cons_append] at h
    obtain ⟨hsize, h⟩ := Lib.toDigits_append_inj (by decide) h
    exact toList_append_inj hsize h

theorem labels_eq_of_join_eq {m m' : Labels}
    (h : m.entries.flatMap (fun e => (lengthPrefixed e.1).toList ++ (lengthPrefixed e.2).toList) =
      m'.entries.flatMap fun e => (lengthPrefixed e.1).toList ++ (lengthPrefixed e.2).toList) :
    m = m' := by
  have hentries :=
    (selfDelimiting_lengthPrefixed.pair selfDelimiting_lengthPrefixed).flatMap_injective h
  cases m
  cases m'
  cases hentries
  rfl

/-- **A series key stands for one name, unit and label set.** -/
theorem eq_of_seriesKey_eq {s s' : Sample V} (h : seriesKey s = seriesKey s') :
    s.name = s'.name ∧ s.unit = s'.unit ∧ s.labels = s'.labels := by
  have htext := congrArg String.toList h
  simp only [seriesKey, String.toList_append, String.toList_join, List.flatMap_map,
    List.append_assoc] at htext
  obtain ⟨hname, htext⟩ := selfDelimiting_lengthPrefixed.append_inj htext
  obtain ⟨hunit, htext⟩ := selfDelimiting_lengthPrefixed.append_inj htext
  exact ⟨hname, hunit, labels_eq_of_join_eq htext⟩

end GenaiBridge
