import GameConsole.Json.Record
import GameConsole.Proofs.Json.Numerals
import Mathlib.Data.List.Nodup

/-! Records as they are written, and as they are read. A reader answers a layout if it reads what
the layout writes, at whatever depth, whatever blanks stand before it and whatever comes after it,
as long as a value may end there. A record that is written field by field is read back if each of
its fields is. -/
namespace GameConsole.Json

theorem blanksSkipped {blanks text : List Char} (blank : ∀ c ∈ blanks, isBlank c = true) :
    skipBlanks (blanks ++ text) = skipBlanks text :=
  List.dropWhile_append_of_pos blank

theorem nothingSkipped {c : Char} (solid : isBlank c = false) (text : List Char) :
    skipBlanks (c :: text) = c :: text := by
  simp [skipBlanks, solid]

structure Answers {α : Type} (read : Reader α) (layout : Layout) (value : α) : Prop where
  solid : ∀ depth rest, skipBlanks (layout depth ++ rest) = layout depth ++ rest
  reads : ∀ depth text rest, Delimited rest → skipBlanks text = layout depth ++ rest →
    read text = .ok (value, rest)

section Scalars

theorem naturalSolid (n : Nat) (rest : List Char) :
    skipBlanks (Nat.toDigits 10 n ++ rest) = Nat.toDigits 10 n ++ rest := by
  obtain ⟨c, tail, written, digit⟩ := digitFirst n
  rw [written]
  refine nothingSkipped ?_ _
  by_contra blank
  rw [Bool.not_eq_false, isBlank] at blank
  simp only [Bool.or_eq_true, beq_iff_eq] at blank
  obtain ((rfl | rfl) | rfl) | rfl := blank <;> cases digit

theorem u64Answers (value : UInt64) : Answers readU64 (.natural value.toNat) value where
  solid _ := naturalSolid value.toNat
  reads depth text rest delimited written := by
    have fits : value.toNat ≤ 2 ^ 64 - 1 := Nat.le_pred_of_lt value.toNat_lt
    have read := naturalRead fits (Nat.le_refl _) delimited written
    rw [readU64, read, okBind]
    exact congrArg (fun value => Except.ok (value, rest)) (UInt64.ofNat_toNat)

theorem u32Answers (value : UInt32) : Answers readU32 (.natural value.toNat) value where
  solid _ := naturalSolid value.toNat
  reads depth text rest delimited written := by
    have fits : value.toNat ≤ 2 ^ 32 - 1 := Nat.le_pred_of_lt value.toNat_lt
    have read := naturalRead fits (by decide) delimited written
    rw [readU32, read, okBind]
    exact congrArg (fun value => Except.ok (value, rest)) (UInt32.ofNat_toNat)

theorem flagAnswers (value : Bool) : Answers readFlag (.flag value) value where
  solid _ rest := by cases value <;> exact nothingSkipped (by decide) _
  reads depth text rest delimited written := by
    unfold readFlag
    rw [written]
    cases value <;> rfl

end Scalars

def Plain (name : String) : Prop := ∀ c ∈ name.toList, c ≠ '"' ∧ c ≠ '\\' ∧ ¬ c < ' '

instance (name : String) : Decidable (Plain name) := List.decidableBAll _ name.toList

theorem charactersScanned {strict : Bool} {text rest taken : List Char} {turns : Nat}
    (plain : ∀ c ∈ text, c ≠ '"' ∧ c ≠ '\\' ∧ ¬ c < ' ') (enough : text.length < turns) :
    scanStringFrom strict turns taken (text ++ '"' :: rest) =
      .ok (taken.reverse ++ text, rest) := by
  induction text generalizing taken turns with
  | nil =>
    obtain ⟨turns, rfl⟩ := Nat.exists_eq_add_of_lt enough
    simp [scanStringFrom]
  | cons c text ih =>
    cases turns with
    | zero => cases enough
    | succ turns =>
      obtain ⟨quote, escape, control⟩ := plain c List.mem_cons_self
      have later : scanStringFrom strict turns (c :: taken) (text ++ '"' :: rest) =
          .ok ((c :: taken).reverse ++ text, rest) :=
        ih (fun c member => plain c (.tail _ member)) (Nat.lt_of_succ_lt_succ enough)
      rw [List.reverse_cons, List.append_assoc] at later
      rw [List.cons_append, scanStringFrom, if_neg control]
      · exact later
      · exact quote
      · exact escape

theorem nameScanned {name : String} (plain : Plain name) (strict : Bool) (rest : List Char) :
    scanString strict (name.toList ++ '"' :: rest) = .ok (name.toList, rest) := by
  have enough : name.toList.length < (name.toList ++ '"' :: rest).length := by
    rw [List.length_append]
    exact Nat.lt_add_of_pos_right (Nat.succ_pos _)
  exact charactersScanned plain enough

theorem fieldAnswers {α σ : Type} {reader : Reader α} {layout : Layout} {value : α}
    (answers : Answers reader layout value) (name : String) (put : α → σ → σ) :
    Answers (Member.of name reader put).read layout (put value) where
  solid := answers.solid
  reads depth text rest delimited written := by
    change (reader text >>= fun found => Except.ok (put found.1, found.2)) = _
    rw [answers.reads depth text rest delimited written, okBind]

/- What a record writes, field by field, and what it makes of the record that there was before. -/
inductive Fills {σ : Type} : List (Member σ) → List (String × Layout) → σ → σ → Prop where
  | nil (s : σ) : Fills [] [] s s
  | cons {field : Member σ} {fields : List (Member σ)} {layout : Layout}
      {entries : List (String × Layout)} {change : σ → σ} {s t : σ}
      (answers : Answers field.read layout change) (rest : Fills fields entries (change s) t) :
      Fills (field :: fields) ((field.name, layout) :: entries) s t

theorem markFound {c : Char} {text rest : List Char} (found : skipBlanks text = c :: rest) :
    mark c text = .ok rest := by
  rw [mark, found]
  exact if_pos rfl

theorem newLineSkipped (depth : Nat) {c : Char} (solid : isBlank c = false) (text : List Char) :
    skipBlanks (Layout.newLine depth ++ c :: text) = c :: text := by
  have blank : ∀ c ∈ Layout.newLine depth, isBlank c = true := by
    intro c member
    obtain rfl | spaces := List.mem_cons.mp member
    · rfl
    · rw [List.eq_of_mem_replicate spaces]
      rfl
  rw [blanksSkipped blank, nothingSkipped solid]

theorem memberSpelled (depth : Nat) (name : String) (layout : Layout) (rest : List Char) :
    Layout.member depth name layout ++ rest =
      Layout.newLine depth ++
        '"' :: (name.toList ++ '"' :: ':' :: ' ' :: (layout depth ++ rest)) := by
  simp [Layout.member]

section Member
variable {σ : Type} {fields : List (Member σ)} {field : Member σ} {layout : Layout}
  {change : σ → σ} {seen : List String} (answers : Answers field.read layout change)
  (plain : Plain field.name) (found : fields.find? (fun f => f.name = field.name) = some field)
  (fresh : field.name ∉ seen) (strangers : Strangers) (turns depth : Nat) (s : σ)
  {rest : List Char} (delimited : Delimited rest)
include answers plain found fresh delimited

theorem memberRead {first : Bool} {c : Char} {text after opened : List Char}
    (starts : skipBlanks text = c :: after) (more : c ≠ '\x7d')
    (lead : first = true ∧ opened = c :: after ∨ first = false ∧ c = ',' ∧ opened = after)
    (quote : mark '"' opened =
      .ok (field.name.toList ++ '"' :: ':' :: ' ' :: (layout depth ++ rest))) :
    readMembers strangers fields (turns + 1) seen first s text =
      readMembers strangers fields turns (field.name :: seen) false (change s) rest := by
  have name := nameScanned plain true (':' :: ' ' :: (layout depth ++ rest))
  have colon : mark ':' (':' :: ' ' :: (layout depth ++ rest)) =
      .ok (' ' :: (layout depth ++ rest)) := markFound (nothingSkipped (by decide) _)
  have value : field.read (' ' :: (layout depth ++ rest)) = .ok (change, rest) :=
    answers.reads depth _ rest delimited (answers.solid depth rest)
  have led (onward : Reader σ) :
      (if first = true then Except.ok (c :: after) >>= fun member => onward member
        else if c = ',' then Except.ok after >>= fun member => onward member
        else Except.error Problem.malformed >>= fun member => onward member) = onward opened := by
    obtain ⟨rfl, rfl⟩ | ⟨rfl, rfl, rfl⟩ := lead <;> rfl
  rw [readMembers, starts]
  split
  case h_1 none => cases none
  case h_2 closed => exact absurd (List.cons.inj closed).1 more
  case h_3 some =>
    obtain ⟨rfl, rfl⟩ := List.cons.inj some
    refine (led _).trans ?_
    rw [quote, okBind, name, okBind]
    dsimp only
    rw [String.ofList_toList, found]
    dsimp only
    rw [if_neg fresh, colon, okBind, value, okBind]

theorem firstRead :
    readMembers strangers fields (turns + 1) seen true s
        (Layout.member depth field.name layout ++ rest) =
      readMembers strangers fields turns (field.name :: seen) false (change s) rest := by
  rw [memberSpelled]
  exact memberRead answers plain found fresh strangers turns depth s delimited
    (newLineSkipped depth (by decide) _) (by decide) (.inl ⟨rfl, rfl⟩)
    (markFound (nothingSkipped (by decide) _))

theorem nextRead :
    readMembers strangers fields (turns + 1) seen false s
        (',' :: (Layout.member depth field.name layout ++ rest)) =
      readMembers strangers fields turns (field.name :: seen) false (change s) rest := by
  rw [memberSpelled]
  exact memberRead answers plain found fresh strangers turns depth s delimited
    (nothingSkipped (by decide) _) (by decide) (.inr ⟨rfl, rfl, rfl⟩)
    (markFound (newLineSkipped depth (by decide) _))

end Member

section Records
variable {σ : Type} {fields : List (Member σ)}

structure Legible (fields : List (Member σ)) : Prop where
  distinct : (fields.map Member.name).Nodup
  plain : ∀ field ∈ fields, Plain field.name

theorem Legible.found (legible : Legible fields) {field : Member σ} (among : field ∈ fields) :
    fields.find? (fun f => f.name = field.name) = some field := by
  obtain ⟨other, found⟩ := Option.isSome_iff_exists.mp
    (List.find?_isSome.mpr ⟨field, among, decide_eq_true rfl⟩ :
      (fields.find? fun f => f.name = field.name).isSome)
  have alike := List.find?_some found
  rw [found, List.inj_on_of_nodup_map legible.distinct (List.mem_of_find?_eq_some found) among
    (of_decide_eq_true alike)]

def following (depth : Nat) (entries : List (String × Layout)) : List Char :=
  entries.flatMap fun entry => ',' :: Layout.member depth entry.1 entry.2

theorem membersSpelled (depth : Nat) (name : String) (layout : Layout)
    (entries : List (String × Layout)) :
    Layout.members depth ((name, layout) :: entries) =
      Layout.member depth name layout ++ following depth entries := by
  induction entries generalizing name layout with
  | nil => exact (List.append_nil _).symm
  | cons entry entries ih =>
    rw [Layout.members, ih entry.1 entry.2]
    · rfl
    · exact List.cons_ne_nil _ _

theorem followingLong (depth : Nat) (entries : List (String × Layout)) :
    entries.length ≤ (following depth entries).length := by
  induction entries with
  | nil => exact Nat.le_refl _
  | cons entry entries ih =>
    rw [following, List.flatMap_cons, List.length_append, Nat.add_comm, List.length_cons]
    exact Nat.add_le_add ih (Nat.succ_pos _)

theorem followingDelimited (depth outer : Nat) (entries : List (String × Layout))
    (rest : List Char) : Delimited (following depth entries ++ (Layout.newLine outer ++ rest)) := by
  cases entries with
  | nil => exact delimitedCons (by decide) _
  | cons entry entries => exact delimitedCons (by decide) _

theorem closingRead (strangers : Strangers) (turns : Nat) (seen : List String) (first : Bool)
    (s : σ) {text rest : List Char} (closing : skipBlanks text = '\x7d' :: rest) :
    readMembers strangers fields (turns + 1) seen first s text = .ok (s, rest) := by
  rw [readMembers, closing]
  rfl

/- The induction is on the fields that are left; the names of those before them have been seen. -/
theorem membersRead {later : List (Member σ)} {entries : List (String × Layout)} {s t : σ}
    (fills : Fills later entries s t) (legible : Legible fields) (part : later.Sublist fields)
    {seen : List String} (fresh : ∀ field ∈ later, field.name ∉ seen) (strangers : Strangers)
    (depth outer : Nat) {turns : Nat} (enough : entries.length < turns) (rest : List Char) :
    readMembers strangers fields turns seen false s
        (following depth entries ++ (Layout.newLine outer ++ '\x7d' :: rest)) =
      .ok (t, rest) := by
  induction fills generalizing seen turns with
  | nil s =>
    obtain ⟨turns, rfl⟩ := Nat.exists_eq_add_of_lt enough
    exact closingRead strangers _ seen false s (newLineSkipped outer (by decide) rest)
  | @cons field later layout entries change s t answers fills ih =>
    obtain ⟨turns, rfl⟩ := Nat.exists_eq_add_of_lt enough
    have among := part.subset List.mem_cons_self
    have names := legible.distinct.sublist (part.map Member.name)
    have taken := nextRead answers (legible.plain field among) (legible.found among)
      (fresh field List.mem_cons_self) strangers (entries.length + 1 + turns) depth s
      (followingDelimited depth outer entries ('\x7d' :: rest))
    have others : ∀ other ∈ later, other.name ∉ field.name :: seen := by
      intro other among repeated
      obtain same | old := List.mem_cons.mp repeated
      · exact (List.nodup_cons.mp names).1 (same ▸ List.mem_map_of_mem among)
      · exact fresh other (.tail _ among) old
    rw [following, List.flatMap_cons, List.append_assoc, List.cons_append]
    exact taken.trans (ih (List.sublist_of_cons_sublist part) others (by omega))

theorem recordSpelled (depth : Nat) (name : String) (layout : Layout)
    (entries : List (String × Layout)) (rest : List Char) :
    Layout.record ((name, layout) :: entries) depth ++ rest =
      '\x7b' :: (Layout.member (depth + 1) name layout ++
        (following (depth + 1) entries ++ (Layout.newLine depth ++ '\x7d' :: rest))) := by
  simp [Layout.record, membersSpelled]

theorem turnsSuffice (depth : Nat) (name : String) (layout : Layout)
    (entries : List (String × Layout)) (rest : List Char) :
    ∃ turns, entries.length < turns ∧
      (Layout.member (depth + 1) name layout ++ (following (depth + 1) entries ++
        (Layout.newLine depth ++ '\x7d' :: rest))).length = turns + 1 := by
  have one : (Layout.member (depth + 1) name layout).length ≠ 0 := Nat.succ_ne_zero _
  have others := followingLong (depth + 1) entries
  refine ⟨_, ?_, (Nat.sub_add_cancel (Nat.succ_le_of_lt ?_)).symm⟩
  all_goals
    rw [List.length_append, List.length_append, List.length_append, List.length_cons]
    omega

theorem recordAnswers {entries : List (String × Layout)} {start t : σ} (legible : Legible fields)
    (fills : Fills fields entries start t) (strangers : Strangers) :
    Answers (readRecord strangers fields start) (Layout.record entries) t where
  solid depth rest := by
    cases entries <;> exact nothingSkipped (by decide) _
  reads depth text rest delimited written := by
    unfold readRecord
    rw [written]
    cases fills with
    | nil => exact closingRead strangers _ [] true start (nothingSkipped (by decide) rest)
    | @cons field later layout entries change s t answers fills =>
      have among : field ∈ field :: later := List.mem_cons_self
      have others : ∀ other ∈ later, other.name ∉ [field.name] := by
        intro other among same
        exact (List.nodup_cons.mp legible.distinct).1
          (List.mem_singleton.mp same ▸ List.mem_map_of_mem among)
      obtain ⟨turns, enough, length⟩ := turnsSuffice depth field.name layout entries rest
      have taken := firstRead answers (legible.plain field among) (legible.found among)
        List.not_mem_nil strangers turns (depth + 1) start
        (followingDelimited (depth + 1) depth entries ('\x7d' :: rest))
      have left := membersRead fills legible (List.sublist_cons_self field later) others strangers
        (depth + 1) depth enough rest
      rw [recordSpelled]
      change readMembers strangers _ (List.length _) [] true start _ = _
      rw [length]
      exact taken.trans left

theorem readAllAnswers {α : Type} {reader : Reader α} {layout : Layout} {value : α}
    (answers : Answers reader layout value) : readAll reader (layout 0) = .ok value := by
  have written := answers.solid 0 []
  rw [List.append_nil] at written
  have read := answers.reads 0 (layout 0) [] (by rintro c ⟨⟩) (by rw [written, List.append_nil])
  rw [readAll, read, okBind]
  rfl

end Records

end GameConsole.Json
