import DshLmc.Utils.SpectrumAttrData

/-!
# The text of a spectrum

When the printers of a spectrum give its elements, or their labels, joined by a separator.
-/

namespace DshLmc

namespace SpectrumAttrData

open Tango

variable {T : Type} {put : T → Except Stop (List Char)} {print : T → List Char} {m_data : List T}

def joined (items : List (List Char)) : List Char := separator.intercalate items

section Loop

variable {before items after : List T}

theorem element_append_cons (x : T) : element put (before ++ x :: after) before.length = put x := by
  rw [element, List.getElem?_append_right (Nat.le_refl _), Nat.sub_self]
  rfl

theorem streamLoop_of_ok (before after : List T) (ss : List Char)
    (hput : ∀ x ∈ items, put x = .ok (print x)) :
    streamLoop (element put (before ++ (items ++ after))) items.length before.length ss
      = .ok (ss ++ items.flatMap fun x => print x ++ separator) := by
  induction items generalizing before ss with
  | nil => simp [streamLoop]
  | cons x items ih =>
      obtain ⟨hx, hitems⟩ := List.forall_mem_cons.mp hput
      have hrest := ih (before ++ [x]) (ss ++ print x ++ separator) hitems
      rw [List.append_assoc, List.length_append, List.length_singleton, List.singleton_append] at hrest
      rw [List.length_cons, List.cons_append, streamLoop, element_append_cons, hx]
      simpa using hrest

theorem streamLoop_of_no_label (before after : List T) (ss : List Char)
    (hput : ∀ x ∈ items, put x = .ok (print x) ∨ put x = .error .no_label)
    (hstop : ∃ x ∈ items, put x = .error .no_label) :
    streamLoop (element put (before ++ (items ++ after))) items.length before.length ss
      = .error .no_label := by
  induction items generalizing before ss with
  | nil =>
      obtain ⟨x, hmem, -⟩ := hstop
      exact absurd hmem List.not_mem_nil
  | cons x items ih =>
      obtain ⟨hx, hitems⟩ := List.forall_mem_cons.mp hput
      rw [List.length_cons, List.cons_append, streamLoop, element_append_cons]
      obtain hx | hx := hx
      · have hstop' : ∃ y ∈ items, put y = .error .no_label := by
          obtain ⟨y, hmem, hy⟩ := hstop
          obtain rfl | hmem := List.mem_cons.mp hmem
          · rw [hx] at hy
            cases hy
          · exact ⟨y, hmem, hy⟩
        have hrest := ih (before ++ [x]) (ss ++ print x ++ separator) hitems hstop'
        rw [List.append_assoc, List.length_append, List.length_singleton,
          List.singleton_append] at hrest
        rw [hx]
        exact hrest
      · rw [hx]

end Loop

theorem joined_append_singleton (items : List T) (x : T) :
    joined ((items ++ [x]).map print) = (items.flatMap fun y => print y ++ separator) ++ print x := by
  induction items with
  | nil => simp [joined]
  | cons y items ih =>
      have hne : (items ++ [x]).map print ≠ [] := by simp
      rw [List.cons_append, List.map_cons, joined, List.intercalate_cons_of_ne_nil hne, ← joined, ih,
        List.flatMap_cons]
      simp

theorem stream_nil : stream (element put []) 0 = .error .out_of_range := by
  rw [stream, lastIndex, if_pos rfl]
  rfl

theorem lastIndex_concat (items : List T) (x : T) :
    lastIndex (items ++ [x]).length = items.length := by
  rw [lastIndex, List.length_append, List.length_singleton, if_neg (by omega), Nat.add_sub_cancel]

theorem stream_of_ok (hne : m_data ≠ []) (hlength : m_data.length ≤ 4294967296)
    (hput : ∀ x ∈ m_data, put x = .ok (print x)) :
    stream (element put m_data) m_data.length = .ok (joined (m_data.map print)) := by
  obtain rfl | ⟨items, x, rfl⟩ := List.eq_nil_or_concat m_data
  · exact absurd rfl hne
  · rw [List.concat_eq_append] at hlength hput ⊢
    have hle : items.length ≤ 4294967295 := by
      rw [List.length_append, List.length_singleton] at hlength
      omega
    have hitems : ∀ y ∈ items, put y = .ok (print y) := by
      intro y hy
      exact hput y (List.mem_append_left _ hy)
    have hloop : streamLoop (element put (items ++ [x])) items.length 0 []
        = .ok (items.flatMap fun y => print y ++ separator) :=
      streamLoop_of_ok [] [x] [] hitems
    have hlast : element put (items ++ [x]) items.length = .ok (print x) := by
      rw [element_append_cons, hput x (by simp)]
    rw [stream, lastIndex_concat, Nat.min_eq_left (by omega), hloop, joined_append_singleton]
    simp only [hlast]
    rw [if_neg (by omega)]
    rfl

theorem stream_of_lt (hlength : 4294967296 < m_data.length)
    (hput : ∀ x ∈ m_data, put x = .ok (print x)) :
    stream (element put m_data) m_data.length = .error .endless := by
  have hbound : 4294967296 ≤ lastIndex m_data.length := by
    rw [lastIndex, if_neg (by omega)]
    omega
  have htake : (m_data.take 4294967296).length = 4294967296 := by
    rw [List.length_take]
    omega
  have hloop := streamLoop_of_ok [] (m_data.drop 4294967296) []
    fun x (hx : x ∈ m_data.take 4294967296) => hput x (List.mem_of_mem_take hx)
  rw [htake, List.take_append_drop] at hloop
  rw [stream, Nat.min_eq_right hbound]
  simp only [List.nil_append, List.length_nil] at hloop
  simp only [hloop]
  exact if_pos (by omega)

theorem stream_of_no_label (hlength : m_data.length ≤ 4294967296)
    (hput : ∀ x ∈ m_data, put x = .ok (print x) ∨ put x = .error .no_label)
    (hstop : ∃ x ∈ m_data, put x = .error .no_label) :
    stream (element put m_data) m_data.length = .error .no_label := by
  obtain rfl | ⟨items, x, rfl⟩ := List.eq_nil_or_concat m_data
  · obtain ⟨x, hmem, -⟩ := hstop
    exact absurd hmem List.not_mem_nil
  · rw [List.concat_eq_append] at hlength hput hstop ⊢
    have hle : items.length ≤ 4294967295 := by
      rw [List.length_append, List.length_singleton] at hlength
      omega
    rw [stream, lastIndex_concat, Nat.min_eq_left (by omega)]
    by_cases hitems : ∃ y ∈ items, put y = .error .no_label
    · have hloop : streamLoop (element put (items ++ [x])) items.length 0 [] = .error .no_label :=
        streamLoop_of_no_label [] [x] []
          (fun y hy => hput y (List.mem_append_left _ hy)) hitems
      rw [hloop]
    · have hok : ∀ y ∈ items, put y = .ok (print y) := by
        intro y hy
        exact (hput y (List.mem_append_left _ hy)).resolve_right fun hstop' => hitems ⟨y, hy, hstop'⟩
      have hloop : streamLoop (element put (items ++ [x])) items.length 0 []
          = .ok (items.flatMap fun y => print y ++ separator) :=
        streamLoop_of_ok [] [x] [] hok
      have hlast : element put (items ++ [x]) items.length = .error .no_label := by
        rw [element_append_cons]
        obtain ⟨y, hmem, hy⟩ := hstop
        obtain hmem | hmem := List.mem_append.mp hmem
        · exact absurd ⟨y, hmem, hy⟩ hitems
        · rwa [← List.mem_singleton.mp hmem]
      rw [hloop]
      simp only [hlast]
      rw [if_neg (by omega)]
      rfl

/-- The text is that of the elements, in order. -/
def Prints (print : T → List Char) (d : SpectrumAttrData T) : Prop :=
  getDataStr print d = .ok (0, joined (d.m_data.map print))

def HasLabel (m_labels : List (List Char)) (value : Int16) : Prop :=
  0 ≤ value.toInt ∧ value.toInt < m_labels.length

instance (m_labels : List (List Char)) (value : Int16) : Decidable (HasLabel m_labels value) :=
  inferInstanceAs (Decidable (_ ∧ _))

def AllLabelled (d : SpectrumAttrData Int16) : Prop := ∀ value ∈ d.m_data, HasLabel d.m_labels value

instance (d : SpectrumAttrData Int16) : Decidable (AllLabelled d) := List.decidableBAll _ _

def labelOf (m_labels : List (List Char)) (value : Int16) : List Char :=
  m_labels.getD value.toInt.toNat []

/-- The numbers for `DEV_SHORT`. Otherwise the labels, or a failure when a value has none. -/
def PrintsEnum (d : SpectrumAttrData Int16) : Prop :=
  if d.m_data_type = devShort then getDataStrEnum d = .ok (0, joined (d.m_data.map printShort))
  else if AllLabelled d then
    getDataStrEnum d = .ok (0, joined (d.m_data.map (labelOf d.m_labels)))
  else ∃ data_str, getDataStrEnum d = .ok (-1, data_str)

theorem getDataStr_i_nil {d : SpectrumAttrData T} (hd : d.m_data = []) :
    getDataStr_i print d = .error .out_of_range := by
  rw [getDataStr_i, hd]
  exact stream_nil

theorem getDataStr_i_of_lt {d : SpectrumAttrData T} (hd : 4294967296 < d.m_data.length) :
    getDataStr_i print d = .error .endless :=
  stream_of_lt hd fun _ _ => rfl

theorem getDataStr_i_of_le {d : SpectrumAttrData T} (hne : d.m_data ≠ [])
    (hd : d.m_data.length ≤ 4294967296) :
    getDataStr_i print d = .ok (joined (d.m_data.map print)) :=
  stream_of_ok hne hd fun _ _ => rfl

theorem prints_iff (print : T → List Char) (d : SpectrumAttrData T) :
    Prints print d ↔ d.m_data ≠ [] ∧ d.m_data.length ≤ 4294967296 := by
  rw [Prints, getDataStr]
  by_cases hne : d.m_data = []
  · rw [getDataStr_i_nil hne]
    exact iff_of_false (fun h => by cases h) fun h => h.1 hne
  · by_cases hle : d.m_data.length ≤ 4294967296
    · rw [getDataStr_i_of_le hne hle]
      exact iff_of_true rfl ⟨hne, hle⟩
    · rw [getDataStr_i_of_lt (by omega)]
      exact iff_of_false (fun h => by cases h) fun h => hle h.2

theorem null_not_mem_printShort (value : Int16) : '\x00' ∉ printShort value := by
  have hdigits : '\x00' ∉ Nat.toDigits 10 value.toInt.natAbs := by
    intro hmem
    have hdigit := Nat.isDigit_of_mem_toDigits (by decide) (by decide) hmem
    revert hdigit
    decide
  rw [printShort]
  split
  · rw [List.mem_cons, not_or]
    exact ⟨by decide, hdigits⟩
  · exact hdigits

theorem printShort_ne_nil (value : Int16) : printShort value ≠ [] := by
  rw [printShort]
  split
  · exact List.cons_ne_nil _ _
  · exact Nat.toDigits_ne_nil

theorem joined_printShort_ne {m_data : List Int16} (hne : m_data ≠ []) :
    joined (m_data.map printShort) ≠ ['\x00'] := by
  obtain ⟨x, items, rfl⟩ := List.exists_cons_of_ne_nil hne
  obtain ⟨c, text, hx⟩ := List.exists_cons_of_ne_nil (printShort_ne_nil x)
  intro hnull
  have hhead : (joined ((x :: items).map printShort)).head? = some c := by
    cases items with
    | nil => simp [joined, hx]
    | cons y items => simp [joined, hx]
  rw [hnull] at hhead
  apply null_not_mem_printShort x
  rw [hx, ← Option.some.inj hhead]
  exact List.mem_cons_self

/-! ### Labels -/

theorem toInt_ofNat_le (n : Nat) : (Int16.ofNat n).toInt ≤ n := by
  rw [Int16.toInt_ofNat', Int16.size, Int.bmod_eq_emod]
  split <;> omega

theorem putLabel_cases (m_labels : List (List Char)) (value : Int16) :
    (HasLabel m_labels value ∧ value < Int16.ofNat m_labels.length
      ∧ putLabel m_labels value = .ok (labelOf m_labels value))
    ∨ (¬ (HasLabel m_labels value ∧ value < Int16.ofNat m_labels.length)
      ∧ putLabel m_labels value = .error .no_label) := by
  have hle := toInt_ofNat_le m_labels.length
  by_cases hrange : value < 0 ∨ value ≥ Int16.ofNat m_labels.length
  · right
    refine ⟨?_, if_pos hrange⟩
    rintro ⟨hlabel, hlt⟩
    obtain hneg | hge := hrange
    · rw [Int16.lt_iff_toInt_lt] at hneg
      exact absurd hlabel.1 (Int.not_le.mpr hneg)
    · rw [ge_iff_le, Int16.le_iff_toInt_le] at hge
      rw [Int16.lt_iff_toInt_lt] at hlt
      omega
  · left
    have hput : putLabel m_labels value
        = m_labels[value.toInt.toNat]?.elim (.error .out_of_range) .ok := if_neg hrange
    rw [not_or, Int16.not_lt, ge_iff_le, Int16.not_le] at hrange
    have hpos := Int16.le_iff_toInt_le.mp hrange.1
    have hlt := Int16.lt_iff_toInt_lt.mp hrange.2
    rw [Int16.toInt_zero] at hpos
    refine ⟨⟨hpos, by omega⟩, hrange.2, ?_⟩
    have hindex : value.toInt.toNat < m_labels.length := by omega
    rw [hput, labelOf, List.getD_eq_getElem?_getD, List.getElem?_eq_getElem hindex]
    rfl

/-- An attribute that is not a short, with a spectrum that the loop gets through. -/
theorem getDataStrEnum_cases {d : SpectrumAttrData Int16} (hne : d.m_data ≠ [])
    (hd : d.m_data.length ≤ 4294967296) (htype : d.m_data_type ≠ devShort) :
    ((∀ value ∈ d.m_data, HasLabel d.m_labels value ∧ value < Int16.ofNat d.m_labels.length)
      ∧ getDataStrEnum d = .ok (0, joined (d.m_data.map (labelOf d.m_labels))))
    ∨ ((∃ value ∈ d.m_data, ¬ (HasLabel d.m_labels value ∧ value < Int16.ofNat d.m_labels.length))
      ∧ ∃ data_str, getDataStrEnum d = .ok (-1, data_str)) := by
  by_cases hall : ∀ value ∈ d.m_data,
      HasLabel d.m_labels value ∧ value < Int16.ofNat d.m_labels.length
  · left
    have hput : ∀ value ∈ d.m_data, putLabel d.m_labels value = .ok (labelOf d.m_labels value) := by
      intro value hmem
      obtain ⟨-, -, hput⟩ | ⟨hnot, -⟩ := putLabel_cases d.m_labels value
      · exact hput
      · exact absurd (hall value hmem) hnot
    have hlabels : d.m_labels ≠ [] := by
      obtain ⟨value, hmem⟩ := List.exists_mem_of_ne_nil _ hne
      intro hnil
      have hlabel := (hall value hmem).1
      rw [hnil, HasLabel, List.length_nil] at hlabel
      omega
    refine ⟨hall, ?_⟩
    rw [getDataStrEnum, getDataStr_i_of_le hne hd, stream_of_ok hne hd hput]
    simp only [if_neg htype, if_neg hlabels]
  · right
    have hstop : ∃ value ∈ d.m_data,
        ¬ (HasLabel d.m_labels value ∧ value < Int16.ofNat d.m_labels.length) := by
      by_contra hnone
      apply hall
      intro value hmem
      by_contra hnot
      exact hnone ⟨value, hmem, hnot⟩
    refine ⟨hstop, ['\x00'], ?_⟩
    rw [getDataStrEnum, getDataStr_i_of_le hne hd]
    by_cases hlabels : d.m_labels = []
    · simp only [if_neg htype, if_pos hlabels]
    · have hstream : stream (element (putLabel d.m_labels) d.m_data) d.m_data.length
          = .error .no_label := by
        have hput : ∀ value ∈ d.m_data, putLabel d.m_labels value = .ok (labelOf d.m_labels value)
            ∨ putLabel d.m_labels value = .error .no_label := by
          intro value _
          obtain ⟨-, -, hput⟩ | ⟨-, hput⟩ := putLabel_cases d.m_labels value
          · exact .inl hput
          · exact .inr hput
        apply stream_of_no_label hd hput
        obtain ⟨value, hmem, hnot⟩ := hstop
        refine ⟨value, hmem, ?_⟩
        obtain ⟨hlabel, hlt, -⟩ | ⟨-, hput⟩ := putLabel_cases d.m_labels value
        · exact absurd ⟨hlabel, hlt⟩ hnot
        · exact hput
      rw [hstream]
      simp only [if_neg htype, if_neg hlabels]

/-- Where every value has a label, the number of labels still counts as a short. -/
def LabelsCount (d : SpectrumAttrData Int16) : Prop :=
  (∀ value ∈ d.m_data, HasLabel d.m_labels value) →
    ∀ value ∈ d.m_data, value < Int16.ofNat d.m_labels.length

theorem not_printsEnum_of_error {d : SpectrumAttrData Int16} {stop : Stop}
    (hd : getDataStr_i printShort d = .error stop) : ¬ PrintsEnum d := by
  have herror : getDataStrEnum d = .error stop := by rw [getDataStrEnum, hd]
  rw [PrintsEnum, herror]
  split
  · exact fun h => by cases h
  · split
    · exact fun h => by cases h
    · rintro ⟨data_str, h⟩
      cases h

theorem not_printsEnum_of_devShort {d : SpectrumAttrData Int16} (htype : d.m_data_type = devShort)
    (hne : d.m_data ≠ []) (hd : d.m_data.length ≤ 4294967296) : ¬ PrintsEnum d := by
  rw [PrintsEnum, if_pos htype, getDataStrEnum, getDataStr_i_of_le hne hd]
  simp only [if_pos htype]
  intro h
  have htext := congrArg Prod.snd (Except.ok.inj h)
  exact joined_printShort_ne hne htext.symm

theorem printsEnum_iff (d : SpectrumAttrData Int16) :
    PrintsEnum d ↔ (d.m_data ≠ [] ∧ d.m_data.length ≤ 4294967296) ∧ d.m_data_type ≠ devShort
      ∧ LabelsCount d := by
  by_cases hne : d.m_data = []
  · exact iff_of_false (not_printsEnum_of_error (getDataStr_i_nil hne)) fun h => h.1.1 hne
  by_cases hd : d.m_data.length ≤ 4294967296
  swap
  · exact iff_of_false (not_printsEnum_of_error (getDataStr_i_of_lt (by omega))) fun h => hd h.1.2
  by_cases htype : d.m_data_type = devShort
  · exact iff_of_false (not_printsEnum_of_devShort htype hne hd) fun h => h.2.1 htype
  rw [PrintsEnum, if_neg htype]
  by_cases hlabels : AllLabelled d
  · rw [if_pos hlabels]
    obtain ⟨hall, hok⟩ | ⟨⟨value, hmem, hnot⟩, data_str, hfail⟩ := getDataStrEnum_cases hne hd htype
    · refine iff_of_true hok ⟨⟨hne, hd⟩, htype, ?_⟩
      exact fun _ value hmem => (hall value hmem).2
    · rw [hfail]
      refine iff_of_false (fun h => by cases h) ?_
      rintro ⟨-, -, hcount⟩
      exact hnot ⟨hlabels value hmem, hcount hlabels value hmem⟩
  · rw [if_neg hlabels]
    have hcount : LabelsCount d := fun h => absurd h hlabels
    obtain ⟨hall, -⟩ | ⟨-, hfail⟩ := getDataStrEnum_cases hne hd htype
    · exact absurd (fun value hmem => (hall value hmem).1) hlabels
    · exact iff_of_true hfail ⟨⟨hne, hd⟩, htype, hcount⟩

/-- Whatever calls of `set_data` made of an attribute, with elements of any type or with those of an
enumeration. -/
theorem printsValue_iff {T : Type} (print : T → List Char) (d : SpectrumAttrData T)
    (labelled : SpectrumAttrData Int16) :
    (Prints print d ↔ d.m_data ≠ [] ∧ d.m_data.length ≤ 4294967296)
    ∧ (PrintsEnum labelled ↔
      (labelled.m_data ≠ [] ∧ labelled.m_data.length ≤ 4294967296)
        ∧ labelled.m_data_type ≠ devShort ∧ LabelsCount labelled) :=
  ⟨prints_iff print d, printsEnum_iff labelled⟩

theorem not_printsValue_sample :
    ¬ Prints (fun b => if b then ['1'] else ['0'])
        ((⟨[true], devBoolean, [], .valid, ⟨0, 0⟩, false⟩ : SpectrumAttrData Bool).setData
          ⟨1, 0⟩ (.vector [] .valid)).2
      ∧ ¬ PrintsEnum ((⟨[1], devShort, [], .valid, ⟨0, 0⟩, false⟩ : SpectrumAttrData Int16).setData
        ⟨1, 0⟩ (.vector [7] .valid)).2 := by
  constructor
  · intro h
    rw [Prints, getDataStr, getDataStr_i_nil rfl] at h
    cases h
  · exact not_printsEnum_of_devShort rfl (List.cons_ne_nil 7 []) (by decide)

end SpectrumAttrData

end DshLmc
