import StaticLog.Format.Parsing

/-! # Formats that are put together

When a format is accepted, the parameters of a longer format that begins with it are its
own parameters and then those of the rest, and the rest is accepted or refused as it is
alone. -/

namespace StaticLog.Format

/-- More passes than there are characters change nothing. -/
theorem getParamInfoFrom_congr {passes others : Nat} {fmt : List UInt8}
    (enough : fmt.length < passes) (enough' : fmt.length < others) (paramNum : Nat) :
    getParamInfoFrom passes fmt paramNum = getParamInfoFrom others fmt paramNum := by
  induction passes generalizing others fmt paramNum with
  | zero => exact absurd enough (Nat.not_lt_zero _)
  | succ passes induction =>
      cases others with
      | zero => exact absurd enough' (Nat.not_lt_zero _)
      | succ others =>
          cases fmt with
          | nil => rfl
          | cons c rest =>
              simp only [List.length_cons] at enough enough'
              simp only [getParamInfoFrom]
              split
              · exact induction (by omega) (by omega) paramNum
              · split
                · have shorter := List.length_tail (l := rest)
                  exact induction (by omega) (by omega) paramNum
                · cases scanned : scanConversion rest paramNum with
                  | error error => rfl
                  | ok scan =>
                      cases scan with
                      | found type => rfl
                      | next behind left =>
                          rcases scanConversion_next scanned with ⟨conversion, split, _⟩
                          have lengths := congrArg List.length split
                          simp only [List.length_append, List.length_cons] at lengths
                          exact induction (by omega) (by omega) left

/-- The parser steps over the pieces of an accepted format. -/
theorem getParamInfoFrom_append {pieces : List Piece} {fmt : List UInt8}
    (spells : Spells pieces fmt) (rest : List UInt8) {passes : Nat}
    (enough : (fmt ++ rest).length < passes) (paramNum : Nat) :
    getParamInfoFrom passes (fmt ++ rest) paramNum =
      match (paramTypes pieces)[paramNum]? with
      | some type => .ok type
      | none => getParamInfo rest (paramNum - (paramTypes pieces).length) := by
  induction pieces generalizing fmt passes paramNum with
  | nil =>
      cases spells.text
      exact getParamInfoFrom_congr enough (Nat.lt_succ_self _) paramNum
  | cons piece pieces induction =>
      rcases spells.uncons with ⟨behind, rfl, plain, spellsBehind⟩
      have positive : 0 < piece.text.length := List.length_pos_iff.mpr piece.text_ne_nil
      rw [List.append_assoc, List.length_append] at enough
      cases passes with
      | zero => exact absurd enough (Nat.not_lt_zero _)
      | succ passes =>
          rw [List.append_assoc, getParamInfoFrom_piece plain, paramTypes_cons,
            List.length_append]
          by_cases within : paramNum < piece.types.length
          · rw [List.getElem?_append_left within, List.getElem?_eq_getElem within]
          · rw [List.getElem?_append_right (by omega),
              List.getElem?_eq_none (by omega : piece.types.length ≤ paramNum),
              ← Nat.sub_sub]
            exact induction spellsBehind (by omega) (paramNum - piece.types.length)

theorem getParamInfo_append {pieces : List Piece} {fmt : List UInt8}
    (spells : Spells pieces fmt) (rest : List UInt8) (paramNum : Nat) :
    getParamInfo (fmt ++ rest) paramNum =
      match (paramTypes pieces)[paramNum]? with
      | some type => .ok type
      | none => getParamInfo rest (paramNum - (paramTypes pieces).length) :=
  getParamInfoFrom_append spells rest (Nat.lt_succ_self _) paramNum

/-! ## Counting -/

theorem countFmtParamsFrom_congr {fmt : List UInt8} {passes others count : Nat}
    (reached : count ≤ fmt.length) (enough : fmt.length < passes + count)
    (enough' : fmt.length < others + count) :
    countFmtParamsFrom fmt passes count = countFmtParamsFrom fmt others count := by
  induction passes generalizing others count with
  | zero => omega
  | succ passes induction =>
      cases others with
      | zero => omega
      | succ others =>
          rw [countFmtParamsFrom, countFmtParamsFrom]
          split
          · rfl
          · rfl
          · rename_i type valid found
            exact induction (getParamInfoFrom_lt found valid) (by omega) (by omega)

section Append

variable {pieces : List Piece} {fmt : List UInt8} (spells : Spells pieces fmt)
  (rest : List UInt8)

include spells

/-- Behind the parameters of the pieces, those of the rest are counted. -/
theorem countFmtParamsFrom_behind (passes count : Nat) :
    countFmtParamsFrom (fmt ++ rest) passes ((paramTypes pieces).length + count) =
      (countFmtParamsFrom rest passes count).map ((paramTypes pieces).length + ·) := by
  induction passes generalizing count with
  | zero => rfl
  | succ passes induction =>
      have type : getParamInfo (fmt ++ rest) ((paramTypes pieces).length + count) =
          getParamInfo rest count := by
        rw [getParamInfo_append spells, List.getElem?_eq_none (Nat.le_add_right _ _)]
        simp
      rw [countFmtParamsFrom, countFmtParamsFrom, type]
      split
      · rfl
      · rfl
      · exact induction (count + 1)

/-- The parameters of the pieces are counted first. -/
theorem countFmtParamsFrom_within (passes : Nat) {count : Nat}
    (within : count ≤ (paramTypes pieces).length) :
    countFmtParamsFrom (fmt ++ rest) (passes + count) 0 =
      countFmtParamsFrom (fmt ++ rest) passes count := by
  induction count generalizing passes with
  | zero => rfl
  | succ count induction =>
      have inside : count < (paramTypes pieces).length := within
      have valid : (paramTypes pieces)[count] ≠ .invalid := fun invalid =>
        invalid_not_mem_paramTypes pieces (invalid ▸ List.getElem_mem inside)
      rw [← Nat.add_assoc, Nat.add_right_comm, induction (passes + 1) (by omega),
        countFmtParamsFrom, getParamInfo_append spells, List.getElem?_eq_getElem inside]
      split
      · rename_i impossible
        cases impossible
      · rename_i invalid
        exact absurd (Except.ok.inj invalid) valid
      · rfl

theorem countFmtParams_append :
    countFmtParams (fmt ++ rest) =
      (countFmtParams rest).map ((paramTypes pieces).length + ·) := by
  have bounded := paramTypes_length_le spells
  have passes : (fmt ++ rest).length + 1 =
      (fmt.length + rest.length + 1 - (paramTypes pieces).length) +
        (paramTypes pieces).length := by
    rw [List.length_append]
    omega
  rw [countFmtParams, passes, countFmtParamsFrom_within spells rest _ (Nat.le_refl _)]
  refine (countFmtParamsFrom_behind spells rest _ 0).trans ?_
  rw [countFmtParams,
    countFmtParamsFrom_congr (Nat.zero_le _) (by omega) (Nat.lt_succ_self rest.length)]

theorem getParamInfo_behind :
    (fun i => getParamInfo (fmt ++ rest) ((paramTypes pieces).length + i)) =
      getParamInfo rest := by
  funext i
  rw [getParamInfo_append spells, List.getElem?_eq_none (Nat.le_add_right _ _)]
  simp

theorem getParamInfo_within {i : Nat} (inside : i < (paramTypes pieces).length) :
    getParamInfo (fmt ++ rest) i = .ok (paramTypes pieces)[i] := by
  rw [getParamInfo_append spells, List.getElem?_eq_getElem inside]

theorem mapM_within {count : Nat} (within : count ≤ (paramTypes pieces).length) :
    (List.range count).mapM (getParamInfo (fmt ++ rest)) =
      .ok ((paramTypes pieces).take count) := by
  induction count with
  | zero => rfl
  | succ count induction =>
      have inside : count < (paramTypes pieces).length := within
      rw [List.range_succ, List.mapM_append, induction (by omega), List.take_add_one,
        List.getElem?_eq_getElem inside]
      simp only [List.mapM_cons, List.mapM_nil, getParamInfo_within spells rest inside]
      rfl

theorem analyzeFormatString_append (nParams : Nat) :
    analyzeFormatString ((paramTypes pieces).length + nParams) (fmt ++ rest) =
      (analyzeFormatString nParams rest).map (paramTypes pieces ++ ·) := by
  rw [analyzeFormatString, List.range_add, List.mapM_append,
    mapM_within spells rest (Nat.le_refl _), List.take_length, List.mapM_map]
  simp only [Function.comp_def, getParamInfo_behind spells rest]
  rw [analyzeFormatString]
  cases (List.range nParams).mapM (getParamInfo rest) <;> rfl

/-! ## Nibbles -/

theorem countNibbles_within {count : Nat} (within : count ≤ (paramTypes pieces).length) :
    (List.range count).foldlM (countNibble (fmt ++ rest)) 0 =
      .ok (((paramTypes pieces).take count).countP ParamType.needsNibble) := by
  induction count with
  | zero => rfl
  | succ count induction =>
      have inside : count < (paramTypes pieces).length := within
      rw [List.range_succ, List.foldlM_append, induction (by omega), List.take_add_one,
        List.getElem?_eq_getElem inside, List.countP_append]
      have one : countNibble (fmt ++ rest)
            (((paramTypes pieces).take count).countP ParamType.needsNibble) count =
          .ok (((paramTypes pieces).take count).countP ParamType.needsNibble +
            (some (paramTypes pieces)[count]).toList.countP ParamType.needsNibble) := by
        rw [countNibble, getParamInfo_within spells rest inside]
        cases needs : (paramTypes pieces)[count].needsNibble <;> simp [needs]
      simp only [List.foldlM_cons, List.foldlM_nil]
      exact (bind_pure _).trans one

theorem countNibbles_behind (start : Nat) (indices : List Nat) :
    (indices.map ((paramTypes pieces).length + ·)).foldlM (countNibble (fmt ++ rest)) start =
      indices.foldlM (countNibble rest) start := by
  have behind : (fun numNibbles i => countNibble (fmt ++ rest) numNibbles
      ((paramTypes pieces).length + i)) = countNibble rest := by
    funext numNibbles i
    rw [countNibble, countNibble, congrFun (getParamInfo_behind spells rest) i]
  rw [List.foldlM_map, behind]

omit spells in
/-- Nibbles that are there already are kept. -/
theorem countNibbles_add (start more : Nat) (indices : List Nat) :
    indices.foldlM (countNibble rest) (start + more) =
      (indices.foldlM (countNibble rest) more).map (start + ·) := by
  induction indices generalizing more with
  | nil => rfl
  | cons i indices induction =>
      rw [List.foldlM_cons, List.foldlM_cons, countNibble, countNibble]
      cases getParamInfo rest i with
      | error error => rfl
      | ok type =>
          cases needs : type.needsNibble with
          | false =>
              simp only [needs, Bool.false_eq_true, if_false]
              exact induction more
          | true =>
              simp only [needs, if_true]
              exact induction (more + 1)

theorem getNumNibblesNeeded_append :
    getNumNibblesNeeded (fmt ++ rest) =
      (getNumNibblesNeeded rest).map
        ((paramTypes pieces).countP ParamType.needsNibble + ·) := by
  rw [getNumNibblesNeeded, getNumNibblesNeeded, countFmtParams_append spells]
  cases countFmtParams rest with
  | error error => rfl
  | ok count =>
      have within := countNibbles_within spells rest (Nat.le_refl _)
      rw [List.take_length] at within
      change (List.range ((paramTypes pieces).length + count)).foldlM _ 0 = _
      rw [List.range_add, List.foldlM_append, within]
      exact (countNibbles_behind spells rest _ _).trans
        (countNibbles_add rest _ 0 (List.range count))

end Append

/-- The analysis of a format that begins with an accepted one: its parameters come first,
and then the rest is analysed as if it stood alone, errors included. -/
theorem analysis_append {first : List UInt8} {count : Nat}
    (accepted : countFmtParams first = .ok count) (second : List UInt8) :
    countFmtParams (first ++ second) = (countFmtParams second).map (count + ·) ∧
      ∃ types numNibbles,
        analyzeFormatString count first = .ok types ∧
        getNumNibblesNeeded first = .ok numNibbles ∧
        (∀ nParams, analyzeFormatString (count + nParams) (first ++ second) =
          (analyzeFormatString nParams second).map (types ++ ·)) ∧
        getNumNibblesNeeded (first ++ second) =
          (getNumNibblesNeeded second).map (numNibbles + ·) := by
  rcases (countFmtParams_ok_iff first count).mp accepted with ⟨pieces, spells, rfl⟩
  have nibbles := getNumNibblesNeeded_append spells []
  rw [List.append_nil] at nibbles
  exact ⟨countFmtParams_append spells second, paramTypes pieces, _,
    analyzeFormatString_spelled spells, nibbles, analyzeFormatString_append spells second,
    getNumNibblesNeeded_append spells second⟩

/-- A second part that is refused makes the whole refused. -/
theorem analysis_append_refused :
    countFmtParams (ascii "%*d of " ++ ascii "%s %y") =
      (countFmtParams (ascii "%s %y")).map (2 + ·) ∧
      ∃ types numNibbles,
        analyzeFormatString 2 (ascii "%*d of ") = .ok types ∧
        getNumNibblesNeeded (ascii "%*d of ") = .ok numNibbles ∧
        (∀ nParams, analyzeFormatString (2 + nParams) (ascii "%*d of " ++ ascii "%s %y") =
          (analyzeFormatString nParams (ascii "%s %y")).map (types ++ ·)) ∧
        getNumNibblesNeeded (ascii "%*d of " ++ ascii "%s %y") =
          (getNumNibblesNeeded (ascii "%s %y")).map (numNibbles + ·) :=
  analysis_append (by decide) (ascii "%s %y")

example : countFmtParams (ascii "%s %y") = .error .unrecognizedSpecifier := by decide

end StaticLog.Format
