import Upcn.Config.Grammar

/-!
# What the machine reads

The parser of configuration commands sends a command if and only if the text
begins with a sentence of the grammar whose integers pass the checks after their
conversion.

* `mem_read_menu`, `mem_read_loop` and `mem_read_elements` are the three ways to
  read on: a character that is expected, a row of characters, and a list.
* The rest goes backwards through the stages, from the end of a command to its
  type, and says for each of them what is read from there on.
-/

namespace Upcn.Config

/-! ## Reading on -/

variable {now : Nat} {p : ConfigParser} {bytes rest : Str} {c : RouterCommand}

/-- The command is sent after this byte, or for the text behind it. -/
def Next.Sends (now : Nat) (rest : Str) (c : RouterCommand) : Next → Prop
  | .good p => c ∈ p.read now rest
  | .done p => c = p.routerCommand
  | .error => False

theorem mem_read : c ∈ p.read now bytes ↔
    ∃ b rest, bytes = b :: rest ∧ (p.readByte now b).Sends now rest c := by
  cases bytes with
  | nil =>
    constructor
    · intro h
      cases h
    · intro h
      obtain ⟨b, rest, hnil, _⟩ := h
      cases hnil
  | cons b rest =>
    have hcons : c ∈ p.read now (b :: rest) ↔ (p.readByte now b).Sends now rest c := by
      rw [ConfigParser.read]
      cases p.readByte now b with
      | good p => exact Iff.rfl
      | done p => exact List.mem_singleton
      | error => exact List.mem_nil_iff c
    rw [hcons]
    constructor
    · intro h
      exact ⟨b, rest, rfl, h⟩
    · intro h
      obtain ⟨b', rest', heq, h⟩ := h
      cases heq
      exact h

/-- What is expected, and what it leads to. -/
def menu : List (UInt8 × Next) → UInt8 → Next
  | [], _ => .error
  | (d, x) :: options, b => if b = d then x else menu options b

theorem sends_menu {options : List (UInt8 × Next)} {b : UInt8}
    (h : (options.map Prod.fst).Nodup) :
    (menu options b).Sends now rest c ↔ ∃ x, (b, x) ∈ options ∧ x.Sends now rest c := by
  induction options with
  | nil => simp [menu, Next.Sends]
  | cons o options ih =>
    obtain ⟨d, x⟩ := o
    rw [List.map_cons, List.nodup_cons] at h
    by_cases hb : b = d
    · subst hb
      have hother : ∀ y, (b, y) ∉ options := fun y hy =>
        h.1 (List.mem_map.mpr ⟨(b, y), hy, rfl⟩)
      simp [menu, hother]
    · simp [menu, hb, ih h.2]

/-- A character that is expected. -/
theorem mem_read_menu (options : List (UInt8 × Next))
    (hnodup : (options.map Prod.fst).Nodup)
    (h : ∀ b, p.readByte now b = menu options b) :
    c ∈ p.read now bytes ↔
      ∃ o ∈ options, ∃ rest, bytes = o.1 :: rest ∧ o.2.Sends now rest c := by
  rw [mem_read]
  constructor
  · intro hread
    obtain ⟨b, rest, rfl, hsends⟩ := hread
    rw [h, sends_menu hnodup] at hsends
    obtain ⟨x, hx, hsends⟩ := hsends
    exact ⟨(b, x), hx, rest, rfl, hsends⟩
  · intro hread
    obtain ⟨o, ho, rest, rfl, hsends⟩ := hread
    refine ⟨o.1, rest, rfl, ?_⟩
    rw [h, sends_menu hnodup]
    exact ⟨o.2, ho, hsends⟩

/-- A row of characters. -/
theorem mem_read_loop {state : Str → ConfigParser} {allowed stop : UInt8 → Prop}
    (hgood : ∀ acc b, allowed b → ¬ stop b →
      (state acc).readByte now b = .good (state (acc ++ [b])))
    (herror : ∀ acc b, ¬ allowed b → ¬ stop b → (state acc).readByte now b = .error)
    (acc : Str) :
    c ∈ (state acc).read now bytes ↔ ∃ text b rest, bytes = text ++ b :: rest ∧
      (∀ x ∈ text, allowed x ∧ ¬ stop x) ∧ stop b ∧
      ((state (acc ++ text)).readByte now b).Sends now rest c := by
  induction bytes generalizing acc with
  | nil =>
    rw [mem_read]
    simp
  | cons b bytes ih =>
    rw [mem_read]
    by_cases hstop : stop b
    · constructor
      · intro h
        obtain ⟨b', rest, heq, hsends⟩ := h
        cases heq
        refine ⟨[], b, bytes, rfl, by simp, hstop, ?_⟩
        rw [List.append_nil]
        exact hsends
      · intro h
        obtain ⟨text, b', rest, heq, htext, hstop', hsends⟩ := h
        cases text with
        | nil =>
          cases heq
          rw [List.append_nil] at hsends
          exact ⟨b, bytes, rfl, hsends⟩
        | cons x text =>
          cases heq
          exact absurd hstop (htext b List.mem_cons_self).2
    · by_cases hallowed : allowed b
      · constructor
        · intro h
          obtain ⟨b', rest, heq, hsends⟩ := h
          cases heq
          rw [hgood acc b hallowed hstop] at hsends
          obtain ⟨text, d, rest, rfl, htext, hd, hsends⟩ := (ih (acc ++ [b])).mp hsends
          refine ⟨b :: text, d, rest, rfl, ?_, hd, ?_⟩
          · intro x hx
            rcases List.mem_cons.mp hx with rfl | hx
            · exact ⟨hallowed, hstop⟩
            · exact htext x hx
          · rw [List.append_assoc] at hsends
            exact hsends
        · intro h
          obtain ⟨text, d, rest, heq, htext, hd, hsends⟩ := h
          cases text with
          | nil =>
            cases heq
            exact absurd hd hstop
          | cons x text =>
            cases heq
            refine ⟨b, text ++ d :: rest, rfl, ?_⟩
            rw [hgood acc b hallowed hstop]
            refine (ih (acc ++ [b])).mpr ⟨text, d, rest, rfl, ?_, hd, ?_⟩
            · intro x hx
              exact htext x (List.mem_cons_of_mem b hx)
            · rw [List.append_assoc]
              exact hsends
      · constructor
        · intro h
          obtain ⟨b', rest, heq, hsends⟩ := h
          cases heq
          rw [herror acc b hallowed hstop] at hsends
          cases hsends
        · intro h
          obtain ⟨text, d, rest, heq, htext, hd, _⟩ := h
          cases text with
          | nil =>
            cases heq
            exact absurd hd hstop
          | cons x text =>
            cases heq
            exact absurd (htext b List.mem_cons_self).1 hallowed

/-- A row of characters up to one of two delimiters. -/
theorem mem_read_until_two {state : Str → ConfigParser} {x₁ x₂ : Str → Next}
    {allowed : UInt8 → Bool} {d₁ d₂ : UInt8} (hne : d₂ ≠ d₁)
    (h : ∀ acc b, (state acc).readByte now b
      = if b = d₁ then x₁ acc else if b = d₂ then x₂ acc
        else if allowed b then .good (state (acc ++ [b])) else .error) :
    c ∈ (state []).read now bytes ↔ ∃ text rest,
      (∀ x ∈ text, allowed x ∧ ¬ (x = d₁ ∨ x = d₂)) ∧
      ((bytes = text ++ d₁ :: rest ∧ (x₁ text).Sends now rest c) ∨
        (bytes = text ++ d₂ :: rest ∧ (x₂ text).Sends now rest c)) := by
  have hloop := @mem_read_loop now bytes c state (fun b => allowed b)
    (fun b => b = d₁ ∨ b = d₂)
    (fun acc b hb hd => by
      rw [h, if_neg fun h₁ => hd (.inl h₁), if_neg fun h₂ => hd (.inr h₂), if_pos hb])
    (fun acc b hb hd => by
      rw [h, if_neg fun h₁ => hd (.inl h₁), if_neg fun h₂ => hd (.inr h₂), if_neg hb]) []
  rw [hloop]
  constructor
  · intro hread
    obtain ⟨text, b, rest, hbytes, htext, hb, hsends⟩ := hread
    refine ⟨text, rest, htext, ?_⟩
    rcases hb with rfl | rfl
    · rw [h, if_pos rfl, List.nil_append] at hsends
      exact .inl ⟨hbytes, hsends⟩
    · rw [h, if_neg hne, if_pos rfl, List.nil_append] at hsends
      exact .inr ⟨hbytes, hsends⟩
  · intro hread
    obtain ⟨text, rest, htext, ⟨hbytes, hsends⟩ | ⟨hbytes, hsends⟩⟩ := hread
    · refine ⟨text, d₁, rest, hbytes, htext, .inl rfl, ?_⟩
      rw [h, if_pos rfl, List.nil_append]
      exact hsends
    · refine ⟨text, d₂, rest, hbytes, htext, .inr rfl, ?_⟩
      rw [h, if_neg hne, if_pos rfl, List.nil_append]
      exact hsends

/-- A row of characters up to a delimiter. -/
theorem mem_read_until {state : Str → ConfigParser} {behind : Str → Next}
    {allowed : UInt8 → Bool} {d : UInt8}
    (h : ∀ acc b, (state acc).readByte now b
      = if b = d then behind acc
        else if allowed b then .good (state (acc ++ [b])) else .error) :
    c ∈ (state []).read now bytes ↔ ∃ text rest, bytes = text ++ d :: rest ∧
      (∀ x ∈ text, allowed x ∧ x ≠ d) ∧ (behind text).Sends now rest c := by
  have hloop := @mem_read_loop now bytes c state (fun b => allowed b) (fun b => b = d)
    (fun acc b hb hd => by rw [h, if_neg hd, if_pos hb])
    (fun acc b hb hd => by rw [h, if_neg hd, if_neg hb]) []
  rw [hloop]
  constructor
  · intro hread
    obtain ⟨text, b, rest, hbytes, htext, rfl, hsends⟩ := hread
    rw [h, if_pos rfl, List.nil_append] at hsends
    exact ⟨text, rest, hbytes, htext, hsends⟩
  · intro hread
    obtain ⟨text, rest, hbytes, htext, hsends⟩ := hread
    refine ⟨text, d, rest, hbytes, htext, rfl, ?_⟩
    rw [h, if_pos rfl, List.nil_append]
    exact hsends

/-- A list. -/
theorem mem_read_elements {α : Type} {item : Str → α → Prop}
    {start separator behind : List α → ConfigParser}
    (hitem : ∀ t x, item t x → t ≠ [])
    (hstart : ∀ acc bytes, c ∈ (start acc).read now bytes ↔
      (∃ t x rest, bytes = t ++ rest ∧ item t x ∧
        c ∈ (separator (acc ++ [x])).read now rest) ∨
      ∃ rest, bytes = listEndDelimiter :: rest ∧ c ∈ (behind acc).read now rest)
    (hseparator : ∀ acc bytes, c ∈ (separator acc).read now bytes ↔
      (∃ rest, bytes = listElementSeparator :: rest ∧ c ∈ (start acc).read now rest) ∨
      ∃ rest, bytes = listEndDelimiter :: rest ∧ c ∈ (behind acc).read now rest)
    (acc : List α) :
    c ∈ (start acc).read now bytes ↔ ∃ t xs rest, bytes = t ++ rest ∧
      Elements item t xs ∧ c ∈ (behind (acc ++ xs)).read now rest := by
  constructor
  · -- an element is not empty, so the rest is shorter
    induction hlength : bytes.length using Nat.strongRecOn generalizing bytes acc with
    | ind n ih =>
      intro hread
      rcases (hstart acc bytes).mp hread with ⟨t, x, rest, rfl, hx, hnext⟩ | ⟨rest, rfl, hnext⟩
      · have hpos := List.length_pos_iff.mpr (hitem t x hx)
        rcases (hseparator (acc ++ [x]) rest).mp hnext with
          ⟨rest', rfl, hmore⟩ | ⟨rest', rfl, hend⟩
        · have hshorter : rest'.length < n := by
            rw [← hlength, List.length_append, List.length_cons]
            omega
          obtain ⟨ts, xs, rest'', rfl, hxs, hbehind⟩ :=
            ih _ hshorter (acc ++ [x]) rfl hmore
          refine ⟨t ++ listElementSeparator :: ts, x :: xs, rest'', ?_, .more hx hxs, ?_⟩
          · rw [List.append_assoc, List.cons_append]
          · rw [List.append_assoc] at hbehind
            exact hbehind
        · refine ⟨t ++ [listEndDelimiter], [x], rest', ?_, .last hx, hend⟩
          rw [List.append_assoc, List.singleton_append]
      · refine ⟨[listEndDelimiter], [], rest, rfl, .none, ?_⟩
        rw [List.append_nil]
        exact hnext
  · intro h
    obtain ⟨t, xs, rest, rfl, hxs, h⟩ := h
    induction hxs generalizing acc with
    | none =>
      rw [List.append_nil] at h
      exact (hstart acc _).mpr (.inr ⟨rest, rfl, h⟩)
    | @last t x hx =>
      refine (hstart acc _).mpr (.inl ⟨t, x, listEndDelimiter :: rest, ?_, hx, ?_⟩)
      · rw [List.append_assoc, List.singleton_append]
      · exact (hseparator (acc ++ [x]) _).mpr (.inr ⟨rest, rfl, h⟩)
    | @more t ts x xs hx _ ih =>
      refine (hstart acc _).mpr
        (.inl ⟨t, x, listElementSeparator :: (ts ++ rest), ?_, hx, ?_⟩)
      · rw [List.append_assoc, List.cons_append]
      · refine (hseparator (acc ++ [x]) _).mpr (.inl ⟨ts ++ rest, rfl, ih (acc ++ [x]) ?_⟩)
        rw [List.append_assoc]
        exact h

/-! ## Lists of EIDs -/

namespace EidList

/-- The stages of a list of EIDs. -/
def startStage : EidList → Stage
  | node => .nodeStartDelimiter
  | contact => .contactNodeStartDelimiter

def eidStage : EidList → Stage
  | node => .nodeEid
  | contact => .contactNodeEid

def separatorStage : EidList → Stage
  | node => .nodeSeparator
  | contact => .contactNodeSeparator

def behindStage : EidList → Stage
  | node => .nodesContactsSeparator
  | contact => .contactEndDelimiter

/-- Where `current_eid` is after some entries. -/
def cursor (list : EidList) (eids : List Str) : Option EidList :=
  match eids with
  | [] => none
  | _ :: _ => some list

theorem cursor_concat (list : EidList) (eids : List Str) (eid : Str) :
    list.cursor (eids ++ [eid]) = some list := by
  cases eids <;> rfl

end EidList

/-- The list of a command that is filled in. -/
def Fills (list : EidList) (fill : List Str → RouterCommand) : Prop :=
  ∀ stage digits cursor eids f,
    (⟨stage, fill eids, digits, cursor⟩ : ConfigParser).modifyEids list f
      = ⟨stage, fill (f eids), digits, cursor⟩

variable {list : EidList} {fill : List Str → RouterCommand}

theorem Fills.beginReadDataEid (h : Fills list fill) (stage : Stage) (eids : List Str) :
    (⟨stage, fill eids, [], list.cursor eids⟩ : ConfigParser).beginReadDataEid list
      = ⟨stage, fill (eids ++ [[]]), [], some list⟩ := by
  cases eids with
  | nil =>
    have hfill := h stage [] none [] fun _ => [[]]
    unfold EidList.cursor ConfigParser.beginReadDataEid
    dsimp only
    rw [hfill]
    rfl
  | cons eid eids => exact h stage [] (some list) (eid :: eids) fun l => l ++ [[]]

/-- An EID, from its first character on. -/
theorem Fills.mem_read_eid (h : Fills list fill) (eids : List Str) :
    c ∈ ConfigParser.read now ⟨list.eidStage, fill (eids ++ [[]]), [], some list⟩ bytes ↔
      ∃ eid rest, bytes = eid ++ eidEndDelimiter :: rest ∧ EidBytes eid ∧
        c ∈ ConfigParser.read now
          ⟨list.separatorStage, fill (eids ++ [eid]), [], some list⟩ rest := by
  refine @mem_read_until now bytes c
    (fun acc => ⟨list.eidStage, fill (eids ++ [acc]), [], some list⟩)
    (fun acc => .good ⟨list.separatorStage, fill (eids ++ [acc]), [], some list⟩) _ _ ?_
  intro acc b
  have hbyte := h list.eidStage [] (some list) (eids ++ [acc])
    (List.modifyLast (· ++ [b]))
  rw [List.modifyLast_concat] at hbyte
  rw [← hbyte]
  cases list <;> rfl

theorem EidText.ne_nil {t eid : Str} (h : EidText t eid) : t ≠ [] := by
  rw [h.2]
  exact List.cons_ne_nil _ _

/-- A list of EIDs. -/
theorem Fills.mem_read_eids (h : Fills list fill) :
    c ∈ ConfigParser.read now ⟨list.startStage, fill [], [], none⟩ bytes ↔
      ∃ t eids rest, bytes = t ++ rest ∧ Elements EidText t eids ∧
        c ∈ ConfigParser.read now
          ⟨list.behindStage, fill eids, [], list.cursor eids⟩ rest := by
  refine @mem_read_elements now bytes c Str EidText
    (fun eids => ⟨list.startStage, fill eids, [], list.cursor eids⟩)
    (fun eids => ⟨list.separatorStage, fill eids, [], list.cursor eids⟩)
    (fun eids => ⟨list.behindStage, fill eids, [], list.cursor eids⟩)
    (fun _ _ ht => ht.ne_nil) ?_ ?_ []
  · intro eids bytes
    rw [mem_read_menu
      [(eidStartDelimiter, .good ⟨list.eidStage, fill (eids ++ [[]]), [], some list⟩),
        (listEndDelimiter, .good ⟨list.behindStage, fill eids, [], list.cursor eids⟩)]
      (show [eidStartDelimiter, listEndDelimiter].Nodup by decide) ?_]
    · simp only [List.mem_cons, List.not_mem_nil, or_false, exists_eq_or_imp,
        exists_eq_left, Next.Sends, h.mem_read_eid, list.cursor_concat]
      refine or_congr ?_ Iff.rfl
      constructor
      · intro hread
        obtain ⟨_, rfl, eid, rest, rfl, heid, hnext⟩ := hread
        refine ⟨_, eid, rest, ?_, ⟨heid, rfl⟩, hnext⟩
        rw [List.cons_append, List.append_assoc, List.singleton_append]
      · intro hread
        obtain ⟨_, eid, rest, rfl, ⟨heid, rfl⟩, hnext⟩ := hread
        refine ⟨_, ?_, eid, rest, rfl, heid, hnext⟩
        rw [List.cons_append, List.append_assoc, List.singleton_append]
    · intro b
      have hbegin : (ConfigParser.beginReadDataEid
          ⟨list.startStage, fill eids, [], list.cursor eids⟩ list).goTo list.eidStage
          = ⟨list.eidStage, fill (eids ++ [[]]), [], some list⟩ := by
        rw [h.beginReadDataEid]
        rfl
      rw [← hbegin]
      cases list <;> rfl
  · intro eids bytes
    rw [mem_read_menu
      [(listElementSeparator, .good ⟨list.startStage, fill eids, [], list.cursor eids⟩),
        (listEndDelimiter, .good ⟨list.behindStage, fill eids, [], list.cursor eids⟩)]
      (show [listElementSeparator, listEndDelimiter].Nodup by decide)
      (fun b => by cases list <;> rfl)]
    simp only [List.mem_cons, List.not_mem_nil, or_false, exists_eq_or_imp,
      exists_eq_left, Next.Sends]

/-! ## Contacts -/

variable {type : RouterCommandType} {n : NodeData} {cursor : Option EidList}
  {ks : List ContactData} {k : ContactData}

theorem fills_node : Fills .node fun eids => ⟨type, { n with endpoints := eids }⟩ :=
  fun _ _ _ _ _ => rfl

theorem fills_contact : Fills .contact fun eids =>
    ⟨type, { n with contacts := ks ++ [{ k with contactEndpoints := eids }] }⟩ := by
  intro stage digits cursor eids f
  simp only [ConfigParser.modifyEids, ConfigParser.modifyContact, ConfigParser.modifyData,
    List.modifyLast_concat]

/-- The digits of an integer stop at a delimiter. -/
theorem digits_iff {digits : Str} {stop : UInt8 → Prop}
    (hstop : ∀ d, stop d → isDigitByte d = false) :
    (∀ x ∈ digits, isDigitByte x ∧ ¬ stop x) ↔ Digits digits := by
  refine forall₂_congr fun x _ => and_iff_left_of_imp ?_
  intro hx h
  rw [hstop x h] at hx
  cases hx

/-- The command that is filled in by a contact. -/
def withContact (type : RouterCommandType) (n : NodeData) (ks : List ContactData)
    (k : ContactData) : RouterCommand :=
  ⟨type, { n with contacts := ks ++ [k] }⟩

theorem modifyContact_withContact (stage : Stage) (digits : Str)
    (f : ContactData → ContactData) :
    (⟨stage, withContact type n ks k, digits, cursor⟩ : ConfigParser).modifyContact f
      = ⟨stage, withContact type n ks (f k), digits, cursor⟩ := by
  simp only [ConfigParser.modifyContact, ConfigParser.modifyData, withContact,
    List.modifyLast_concat]

theorem mem_read_contactStartTime :
    c ∈ ConfigParser.read now ⟨.contactStartTime, withContact type n ks k, [], cursor⟩ bytes ↔
      ∃ digits rest, bytes = digits ++ objectElementSeparator :: rest ∧ Digits digits ∧
        c ∈ ConfigParser.read now ⟨.contactEndTime,
          withContact type n ks { k with fromTime := endReadUint64 digits }, [], cursor⟩
          rest := by
  have huntil := @mem_read_until now bytes c
    (fun acc => ⟨.contactStartTime, withContact type n ks k, acc, cursor⟩)
    (fun acc => .good (((ConfigParser.modifyContact
      ⟨.contactStartTime, withContact type n ks k, acc, cursor⟩
      fun k => { k with fromTime := endReadUint64 acc }).clearInteger).goTo
        .contactEndTime))
    isDigitByte objectElementSeparator (fun _ _ => rfl)
  simp only [modifyContact_withContact,
    digits_iff (fun d (hd : d = objectElementSeparator) => by rw [hd]; decide)] at huntil
  exact huntil

theorem mem_read_contactEndTime :
    c ∈ ConfigParser.read now ⟨.contactEndTime, withContact type n ks k, [], cursor⟩ bytes ↔
      ∃ digits rest, bytes = digits ++ objectElementSeparator :: rest ∧ Digits digits ∧
        (k.fromTime < endReadUint64 digits ∧ now < endReadUint64 digits) ∧
        c ∈ ConfigParser.read now ⟨.contactBitrate,
          withContact type n ks { k with toTime := endReadUint64 digits }, [], cursor⟩
          rest := by
  have huntil := @mem_read_until now bytes c
    (fun acc => ⟨.contactEndTime, withContact type n ks k, acc, cursor⟩)
    (fun acc =>
      if k.fromTime < endReadUint64 acc ∧ now < endReadUint64 acc then
        .good ⟨.contactBitrate,
          withContact type n ks { k with toTime := endReadUint64 acc }, [], cursor⟩
      else .error)
    isDigitByte objectElementSeparator ?_
  · simp only [digits_iff (fun d (hd : d = objectElementSeparator) => by rw [hd]; decide)]
      at huntil
    rw [huntil]
    refine exists_congr fun digits => exists_congr fun rest => and_congr_right fun _ =>
      and_congr_right fun _ => ?_
    by_cases hpass : k.fromTime < endReadUint64 digits ∧ now < endReadUint64 digits
    · rw [if_pos hpass]
      exact (and_iff_right hpass).symm
    · rw [if_neg hpass]
      exact ⟨False.elim, fun h => absurd h.1 hpass⟩
  · intro acc b
    have hlast : (withContact type n ks
        { k with toTime := endReadUint64 acc }).data.contacts.getLast?
        = some { k with toTime := endReadUint64 acc } := List.getLast?_concat
    simp only [ConfigParser.readByte, ConfigParser.readCommand, reduceCtorEq, if_false,
      modifyContact_withContact, hlast]
    rfl

theorem mem_read_contactBitrate :
    c ∈ ConfigParser.read now ⟨.contactBitrate, withContact type n ks k, [], cursor⟩ bytes ↔
      ∃ digits rest, Digits digits ∧
        ((bytes = digits ++ objectElementSeparator :: rest ∧
          c ∈ ConfigParser.read now ⟨.contactNodeListStartDelimiter,
            withContact type n ks { k with bitrate := endReadUint32 digits }, [], cursor⟩
            rest) ∨
        (bytes = digits ++ objectEndDelimiter :: rest ∧
          c ∈ ConfigParser.read now ⟨.contactSeparator,
            withContact type n ks { k with bitrate := endReadUint32 digits }, [], cursor⟩
            rest)) := by
  have huntil := @mem_read_until_two now bytes c
    (fun acc => ⟨.contactBitrate, withContact type n ks k, acc, cursor⟩)
    (fun acc => .good (((ConfigParser.modifyContact
      ⟨.contactBitrate, withContact type n ks k, acc, cursor⟩
      fun k => { k with bitrate := endReadUint32 acc }).clearInteger).goTo
        .contactNodeListStartDelimiter))
    (fun acc => .good (((ConfigParser.modifyContact
      ⟨.contactBitrate, withContact type n ks k, acc, cursor⟩
      fun k => { k with bitrate := endReadUint32 acc }).clearInteger).goTo
        .contactSeparator))
    isDigitByte objectElementSeparator objectEndDelimiter (by decide) (fun _ _ => rfl)
  simp only [modifyContact_withContact,
    digits_iff (fun d (hd : d = objectElementSeparator ∨ d = objectEndDelimiter) => by
      rcases hd with rfl | rfl <;> decide)] at huntil
  exact huntil

/-- A single character that is expected. -/
theorem mem_read_one (d : UInt8) (x : Next)
    (h : ∀ b, p.readByte now b = if b = d then x else .error) :
    c ∈ p.read now bytes ↔ ∃ rest, bytes = d :: rest ∧ x.Sends now rest c := by
  rw [mem_read_menu [(d, x)] (by simp) h]
  simp only [List.mem_singleton, exists_eq_left]

/-- One of two characters. -/
theorem mem_read_two (d₁ d₂ : UInt8) (x₁ x₂ : Next) (hne : d₁ ≠ d₂)
    (h : ∀ b, p.readByte now b
      = if b = d₁ then x₁ else if b = d₂ then x₂ else .error) :
    c ∈ p.read now bytes ↔ (∃ rest, bytes = d₁ :: rest ∧ x₁.Sends now rest c) ∨
      ∃ rest, bytes = d₂ :: rest ∧ x₂.Sends now rest c := by
  have hnodup : [d₁, d₂].Nodup := by simpa using hne
  rw [mem_read_menu [(d₁, x₁), (d₂, x₂)] hnodup h]
  simp only [List.mem_cons, List.not_mem_nil, or_false, exists_eq_or_imp, exists_eq_left]

/-- One of three characters. -/
theorem mem_read_three (d₁ d₂ d₃ : UInt8) (x₁ x₂ x₃ : Next)
    (hnodup : [d₁, d₂, d₃].Nodup)
    (h : ∀ b, p.readByte now b
      = if b = d₁ then x₁ else if b = d₂ then x₂ else if b = d₃ then x₃ else .error) :
    c ∈ p.read now bytes ↔ (∃ rest, bytes = d₁ :: rest ∧ x₁.Sends now rest c) ∨
      (∃ rest, bytes = d₂ :: rest ∧ x₂.Sends now rest c) ∨
      ∃ rest, bytes = d₃ :: rest ∧ x₃.Sends now rest c := by
  rw [mem_read_menu [(d₁, x₁), (d₂, x₂), (d₃, x₃)] hnodup h]
  simp only [List.mem_cons, List.not_mem_nil, or_false, exists_eq_or_imp, exists_eq_left]

variable {cmd : RouterCommand}

theorem mem_read_commandEndMarker :
    c ∈ ConfigParser.read now ⟨.commandEndMarker, cmd, [], cursor⟩ bytes ↔
      ∃ rest, bytes = commandEndMarker :: rest ∧ c = cmd :=
  mem_read_one commandEndMarker (.done ⟨.commandEndMarker, cmd, [], cursor⟩) fun _ => rfl

/-- At the start of a contact the list of EIDs that was read last is forgotten. -/
theorem mem_read_contactStartDelimiter :
    c ∈ ConfigParser.read now ⟨.contactStartDelimiter, ⟨type, n⟩, [], cursor⟩ bytes ↔
      (∃ rest, bytes = objectStartDelimiter :: rest ∧
        c ∈ ConfigParser.read now ⟨.contactStartTime,
          withContact type n n.contacts contactCreate, [], none⟩ rest) ∨
      ∃ rest, bytes = listEndDelimiter :: rest ∧
        c ∈ ConfigParser.read now ⟨.commandEndMarker, ⟨type, n⟩, [], none⟩ rest := by
  rw [mem_read_two objectStartDelimiter listEndDelimiter
    (.good ⟨.contactStartTime, withContact type n n.contacts contactCreate, [], none⟩)
    (.good ⟨.commandEndMarker, ⟨type, n⟩, [], cursor⟩) (by decide) (fun _ => rfl)]
  simp only [Next.Sends, mem_read_commandEndMarker]

theorem mem_read_contactSeparator :
    c ∈ ConfigParser.read now ⟨.contactSeparator, ⟨type, n⟩, [], cursor⟩ bytes ↔
      (∃ rest, bytes = listElementSeparator :: rest ∧
        c ∈ ConfigParser.read now ⟨.contactStartDelimiter, ⟨type, n⟩, [], none⟩ rest) ∨
      ∃ rest, bytes = listEndDelimiter :: rest ∧
        c ∈ ConfigParser.read now ⟨.commandEndMarker, ⟨type, n⟩, [], none⟩ rest := by
  rw [mem_read_two listElementSeparator listEndDelimiter
    (.good ⟨.contactStartDelimiter, ⟨type, n⟩, [], cursor⟩)
    (.good ⟨.commandEndMarker, ⟨type, n⟩, [], cursor⟩) (by decide) (fun _ => rfl)]
  simp only [Next.Sends, mem_read_commandEndMarker, mem_read_contactStartDelimiter]

theorem contactSeparator_cursor :
    c ∈ ConfigParser.read now ⟨.contactSeparator, cmd, [], cursor⟩ bytes ↔
      c ∈ ConfigParser.read now ⟨.contactSeparator, cmd, [], none⟩ bytes := by
  cases cmd
  rw [mem_read_contactSeparator, mem_read_contactSeparator]

/-- The endpoints of a contact. -/
theorem mem_read_contactNodeList (hnone : k.contactEndpoints = []) :
    c ∈ ConfigParser.read now
        ⟨.contactNodeListStartDelimiter, withContact type n ks k, [], none⟩ bytes ↔
      ∃ t eids rest, bytes = listStartDelimiter :: (t ++ objectEndDelimiter :: rest) ∧
        Elements EidText t eids ∧
        c ∈ ConfigParser.read now ⟨.contactSeparator,
          withContact type n ks { k with contactEndpoints := eids }, [], none⟩ rest := by
  have hempty : withContact type n ks k
      = withContact type n ks { k with contactEndpoints := [] } := by
    rw [← hnone]
  have heids : ∀ bytes, c ∈ ConfigParser.read now ⟨.contactNodeStartDelimiter,
      withContact type n ks { k with contactEndpoints := [] }, [], none⟩ bytes ↔ _ :=
    fun bytes => fills_contact.mem_read_eids
  have hend : ∀ eids bytes, c ∈ ConfigParser.read now ⟨.contactEndDelimiter,
      withContact type n ks { k with contactEndpoints := eids }, [],
      EidList.contact.cursor eids⟩ bytes ↔
      ∃ rest, bytes = objectEndDelimiter :: rest ∧ c ∈ ConfigParser.read now
        ⟨.contactSeparator, withContact type n ks { k with contactEndpoints := eids }, [],
          none⟩ rest := by
    intro eids bytes
    rw [mem_read_one objectEndDelimiter (.good ⟨.contactSeparator,
      withContact type n ks { k with contactEndpoints := eids }, [],
      EidList.contact.cursor eids⟩) (fun _ => rfl)]
    exact exists_congr fun rest => and_congr_right fun _ => contactSeparator_cursor
  rw [mem_read_one listStartDelimiter (.good ⟨.contactNodeStartDelimiter,
    withContact type n ks k, [], none⟩) (fun _ => rfl), hempty]
  constructor
  · intro h
    obtain ⟨_, rfl, hlist⟩ := h
    obtain ⟨t, eids, _, rfl, helements, hbehind⟩ := (heids _).mp hlist
    obtain ⟨rest, rfl, hread⟩ := (hend eids _).mp hbehind
    exact ⟨t, eids, rest, rfl, helements, hread⟩
  · intro h
    obtain ⟨t, eids, rest, rfl, helements, hread⟩ := h
    exact ⟨_, rfl, (heids _).mpr ⟨t, eids, _, rfl, helements,
      (hend eids _).mpr ⟨rest, rfl, hread⟩⟩⟩

/-- A contact, behind its first character. -/
theorem mem_read_contact :
    c ∈ ConfigParser.read now ⟨.contactStartTime, withContact type n ks contactCreate, [],
        none⟩ bytes ↔
      ∃ t x rest, objectStartDelimiter :: bytes = t ++ rest ∧
        (ContactSentence t x ∧ x.Passes now) ∧
        c ∈ ConfigParser.read now
          ⟨.contactSeparator, withContact type n ks x.converted, [], none⟩ rest := by
  rw [mem_read_contactStartTime]
  constructor
  · intro h
    obtain ⟨fromTime, _, rfl, hfrom, hfromRead⟩ := h
    obtain ⟨toTime, _, rfl, hto, hpass, htoRead⟩ := mem_read_contactEndTime.mp hfromRead
    obtain ⟨bitrate, rest, hbitrate, ⟨rfl, hlist⟩ | ⟨rfl, hread⟩⟩ :=
      mem_read_contactBitrate.mp htoRead
    · obtain ⟨t, eids, rest, rfl, helements, hread⟩ :=
        (mem_read_contactNodeList rfl).mp hlist
      refine ⟨_, ⟨fromTime, toTime, bitrate, eids⟩, rest, ?_,
        ⟨.long ⟨hfrom, hto, hbitrate⟩ helements, hpass⟩, hread⟩
      simp [ContactText.times]
    · refine ⟨_, ⟨fromTime, toTime, bitrate, []⟩, rest, ?_,
        ⟨.short ⟨hfrom, hto, hbitrate⟩ rfl, hpass⟩, hread⟩
      simp [ContactText.times]
  · intro h
    obtain ⟨t, x, rest, hbytes, ⟨hsentence, hpass⟩, hread⟩ := h
    cases hsentence with
    | short hwritten hnone =>
      have hrest : bytes = x.fromTime ++ objectElementSeparator :: (x.toTime ++
          objectElementSeparator :: (x.bitrate ++ objectEndDelimiter :: rest)) := by
        simpa [ContactText.times] using hbytes
      refine ⟨x.fromTime, _, hrest, hwritten.fromTime, ?_⟩
      refine mem_read_contactEndTime.mpr ⟨x.toTime, _, rfl, hwritten.toTime, hpass, ?_⟩
      refine mem_read_contactBitrate.mpr
        ⟨x.bitrate, rest, hwritten.bitrate, .inr ⟨rfl, ?_⟩⟩
      rw [ContactText.converted, hnone] at hread
      exact hread
    | @long _ t hwritten helements =>
      have hrest : bytes = x.fromTime ++ objectElementSeparator :: (x.toTime ++
          objectElementSeparator :: (x.bitrate ++ objectElementSeparator ::
            listStartDelimiter :: (t ++ objectEndDelimiter :: rest))) := by
        simpa [ContactText.times] using hbytes
      refine ⟨x.fromTime, _, hrest, hwritten.fromTime, ?_⟩
      refine mem_read_contactEndTime.mpr ⟨x.toTime, _, rfl, hwritten.toTime, hpass, ?_⟩
      refine mem_read_contactBitrate.mpr
        ⟨x.bitrate, _, hwritten.bitrate, .inl ⟨rfl, ?_⟩⟩
      exact (mem_read_contactNodeList rfl).mpr ⟨t, x.endpoints, rest, rfl, helements, hread⟩

theorem ContactSentence.eq_cons {t : Str} {x : ContactText} (h : ContactSentence t x) :
    ∃ t', t = objectStartDelimiter :: t' := by
  cases h <;> exact ⟨_, rfl⟩

theorem ContactSentence.ne_nil {t : Str} {x : ContactText} (h : ContactSentence t x) :
    t ≠ [] := by
  obtain ⟨t', rfl⟩ := h.eq_cons
  exact List.cons_ne_nil _ _

/-- A condition on every element of a list. -/
theorem elements_and {α : Type} {item : Str → α → Prop} {cond : α → Prop} {t : Str}
    {xs : List α} : Elements (fun t x => item t x ∧ cond x) t xs ↔
      Elements item t xs ∧ ∀ x ∈ xs, cond x := by
  constructor
  · intro h
    induction h with
    | none => exact ⟨.none, fun x hx => absurd hx List.not_mem_nil⟩
    | last h =>
      refine ⟨.last h.1, fun x hx => ?_⟩
      rw [List.mem_singleton.mp hx]
      exact h.2
    | more h _ ih =>
      refine ⟨.more h.1 ih.1, fun x hx => ?_⟩
      rcases List.mem_cons.mp hx with rfl | hx
      · exact h.2
      · exact ih.2 x hx
  · intro h
    obtain ⟨helements, hcond⟩ := h
    induction helements with
    | none => exact .none
    | last h => exact .last ⟨h, hcond _ List.mem_cons_self⟩
    | more h _ ih =>
      exact .more ⟨h, hcond _ List.mem_cons_self⟩
        (ih fun x hx => hcond x (List.mem_cons_of_mem _ hx))

/-- The contacts of a command. -/
def withContacts (type : RouterCommandType) (n : NodeData) (xs : List ContactText) :
    RouterCommand :=
  ⟨type, { n with contacts := xs.map ContactText.converted }⟩

/-- A list of contacts. -/
theorem mem_read_contacts :
    c ∈ ConfigParser.read now ⟨.contactStartDelimiter, withContacts type n [], [], none⟩
        bytes ↔
      ∃ t xs rest, bytes = t ++ rest ∧
        (Elements ContactSentence t xs ∧ ∀ x ∈ xs, x.Passes now) ∧
        c ∈ ConfigParser.read now ⟨.commandEndMarker, withContacts type n xs, [], none⟩
          rest := by
  have helements := @mem_read_elements now bytes c ContactText
    (fun t x => ContactSentence t x ∧ x.Passes now)
    (fun xs => ⟨.contactStartDelimiter, withContacts type n xs, [], none⟩)
    (fun xs => ⟨.contactSeparator, withContacts type n xs, [], none⟩)
    (fun xs => ⟨.commandEndMarker, withContacts type n xs, [], none⟩)
    (fun _ _ h => h.1.ne_nil) ?_ (fun _ _ => mem_read_contactSeparator) []
  · simp only [elements_and, List.nil_append] at helements
    exact helements
  · intro acc bytes
    rw [withContacts, mem_read_contactStartDelimiter]
    refine or_congr ?_ Iff.rfl
    simp only [mem_read_contact]
    have hconcat : ∀ x : ContactText,
        withContact type { n with contacts := acc.map ContactText.converted }
          (acc.map ContactText.converted) x.converted = withContacts type n (acc ++ [x]) := by
      intro x
      rw [withContacts, List.map_append]
      rfl
    constructor
    · intro h
      obtain ⟨bytes', rfl, t, x, rest, hbytes, hx, hread⟩ := h
      rw [hconcat] at hread
      exact ⟨t, x, rest, hbytes, hx, hread⟩
    · intro h
      obtain ⟨t, x, rest, rfl, hx, hread⟩ := h
      obtain ⟨t', rfl⟩ := hx.1.eq_cons
      rw [← hconcat] at hread
      exact ⟨t' ++ rest, rfl, _, x, rest, rfl, hx, hread⟩

/-! ## The parts of a command, from the end on -/

/-- The command that is filled in. -/
def written (type : RouterCommandType) (eid addr : Option Str) (reliability : Nat)
    (eids : List Str) (ks : List ContactText) : RouterCommand :=
  ⟨type, ⟨eid, addr, reliability, eids, ks.map ContactText.converted⟩⟩

variable {eid addr : Option Str} {reliability : Nat} {eids : List Str}

theorem contactStartDelimiter_cursor :
    c ∈ ConfigParser.read now ⟨.contactStartDelimiter, cmd, [], cursor⟩ bytes ↔
      c ∈ ConfigParser.read now ⟨.contactStartDelimiter, cmd, [], none⟩ bytes := by
  cases cmd
  rw [mem_read_contactStartDelimiter, mem_read_contactStartDelimiter]

theorem mem_read_contactsPart :
    c ∈ ConfigParser.read now ⟨.contactListStartDelimiter,
        written type eid addr reliability eids [], [], cursor⟩ bytes ↔
      ∃ t ks rest, bytes = t ++ rest ∧ ContactsPart t ks ∧ (∀ x ∈ ks, x.Passes now) ∧
        c = written type eid addr reliability eids ks := by
  have hcontacts : ∀ bytes, c ∈ ConfigParser.read now ⟨.contactStartDelimiter,
      written type eid addr reliability eids [], [], cursor⟩ bytes ↔
      ∃ t ks rest, bytes = t ++ rest ∧
        (Elements ContactSentence t ks ∧ ∀ x ∈ ks, x.Passes now) ∧
        c ∈ ConfigParser.read now ⟨.commandEndMarker,
          written type eid addr reliability eids ks, [], none⟩ rest :=
    fun bytes => contactStartDelimiter_cursor.trans
      (@mem_read_contacts now bytes c type ⟨eid, addr, reliability, eids, []⟩)
  rw [mem_read_two listStartDelimiter commandEndMarker
    (.good ⟨.contactStartDelimiter, written type eid addr reliability eids [], [], cursor⟩)
    (.done ⟨.contactListStartDelimiter, written type eid addr reliability eids [], [],
      cursor⟩) (by decide) (fun _ => rfl)]
  constructor
  · intro h
    rcases h with ⟨_, rfl, hlist⟩ | ⟨rest, rfl, hc⟩
    · obtain ⟨t, ks, _, rfl, ⟨helements, hpass⟩, hend⟩ :=
        (hcontacts _).mp hlist
      obtain ⟨rest, rfl, hc⟩ := mem_read_commandEndMarker.mp hend
      refine ⟨_, ks, rest, ?_, .list helements, hpass, hc⟩
      simp
    · exact ⟨[commandEndMarker], [], rest, rfl, .none, by simp, hc⟩
  · intro h
    obtain ⟨t, ks, rest, rfl, hpart, hpass, hc⟩ := h
    cases hpart with
    | none => exact .inr ⟨rest, rfl, hc⟩
    | @list t _ helements =>
      refine .inl ⟨t ++ commandEndMarker :: rest, by simp, ?_⟩
      refine (hcontacts _).mpr ⟨t, ks, _, rfl, ⟨helements, hpass⟩, ?_⟩
      exact mem_read_commandEndMarker.mpr ⟨rest, rfl, hc⟩

theorem mem_read_behindEndpoints :
    c ∈ ConfigParser.read now ⟨.nodesContactsSeparator,
        written type eid addr reliability eids [], [], cursor⟩ bytes ↔
      ∃ t ks rest, bytes = t ++ rest ∧ BehindEndpoints t ks ∧ (∀ x ∈ ks, x.Passes now) ∧
        c = written type eid addr reliability eids ks := by
  rw [mem_read_two nodesContactsSeparator commandEndMarker
    (.good ⟨.contactListStartDelimiter, written type eid addr reliability eids [], [],
      cursor⟩)
    (.done ⟨.nodesContactsSeparator, written type eid addr reliability eids [], [],
      cursor⟩) (by decide) (fun _ => rfl)]
  constructor
  · intro h
    rcases h with ⟨_, rfl, hread⟩ | ⟨rest, rfl, hc⟩
    · obtain ⟨t, ks, rest, rfl, hpart, hpass, hc⟩ := mem_read_contactsPart.mp hread
      exact ⟨_, ks, rest, rfl, .contacts hpart, hpass, hc⟩
    · exact ⟨[commandEndMarker], [], rest, rfl, .none, by simp, hc⟩
  · intro h
    obtain ⟨t, ks, rest, rfl, hpart, hpass, hc⟩ := h
    cases hpart with
    | none => exact .inr ⟨rest, rfl, hc⟩
    | contacts hpart =>
      exact .inl ⟨_, rfl, mem_read_contactsPart.mpr ⟨_, ks, rest, rfl, hpart, hpass, hc⟩⟩

theorem mem_read_endpointsPart :
    c ∈ ConfigParser.read now ⟨.nodeListStartDelimiter,
        written type eid addr reliability [] [], [], none⟩ bytes ↔
      ∃ t eids ks rest, bytes = t ++ rest ∧ EndpointsPart t eids ks ∧
        (∀ x ∈ ks, x.Passes now) ∧ c = written type eid addr reliability eids ks := by
  have heids : ∀ bytes, c ∈ ConfigParser.read now ⟨.nodeStartDelimiter,
      written type eid addr reliability [] [], [], none⟩ bytes ↔
      ∃ t eids rest, bytes = t ++ rest ∧ Elements EidText t eids ∧
        c ∈ ConfigParser.read now ⟨.nodesContactsSeparator,
          written type eid addr reliability eids [], [], EidList.node.cursor eids⟩ rest :=
    fun bytes => (@fills_node type ⟨eid, addr, reliability, [], []⟩).mem_read_eids
  rw [mem_read_three listStartDelimiter nodesContactsSeparator commandEndMarker
    (.good ⟨.nodeStartDelimiter, written type eid addr reliability [] [], [], none⟩)
    (.good ⟨.contactListStartDelimiter, written type eid addr reliability [] [], [], none⟩)
    (.done ⟨.nodeListStartDelimiter, written type eid addr reliability [] [], [], none⟩)
    (by decide) (fun _ => rfl)]
  constructor
  · intro h
    rcases h with ⟨_, rfl, hlist⟩ | ⟨_, rfl, hread⟩ | ⟨rest, rfl, hc⟩
    · obtain ⟨t, eids, _, rfl, helements, hread⟩ := (heids _).mp hlist
      obtain ⟨u, ks, rest, rfl, hpart, hpass, hc⟩ := mem_read_behindEndpoints.mp hread
      refine ⟨_, eids, ks, rest, ?_, .list helements hpart, hpass, hc⟩
      simp
    · obtain ⟨t, ks, rest, rfl, hpart, hpass, hc⟩ := mem_read_contactsPart.mp hread
      exact ⟨_, [], ks, rest, rfl, .contacts hpart, hpass, hc⟩
    · exact ⟨[commandEndMarker], [], [], rest, rfl, .none, by simp, hc⟩
  · intro h
    obtain ⟨t, eids, ks, rest, rfl, hpart, hpass, hc⟩ := h
    cases hpart with
    | none => exact .inr (.inr ⟨rest, rfl, hc⟩)
    | contacts hpart =>
      exact .inr (.inl ⟨_, rfl,
        mem_read_contactsPart.mpr ⟨_, ks, rest, rfl, hpart, hpass, hc⟩⟩)
    | @list t u _ _ helements hpart =>
      refine .inl ⟨t ++ (u ++ rest), by simp, (heids _).mpr ⟨t, eids, _, rfl, helements, ?_⟩⟩
      exact mem_read_behindEndpoints.mpr ⟨u, ks, rest, rfl, hpart, hpass, hc⟩

theorem mem_read_behindClaAddr :
    c ∈ ConfigParser.read now ⟨.claAddrNodesSeparator,
        written type eid addr reliability [] [], [], none⟩ bytes ↔
      ∃ t eids ks rest, bytes = t ++ rest ∧ BehindClaAddr t eids ks ∧
        (∀ x ∈ ks, x.Passes now) ∧ c = written type eid addr reliability eids ks := by
  rw [mem_read_two claAddrNodesSeparator commandEndMarker
    (.good ⟨.nodeListStartDelimiter, written type eid addr reliability [] [], [], none⟩)
    (.done ⟨.claAddrNodesSeparator, written type eid addr reliability [] [], [], none⟩)
    (by decide) (fun _ => rfl)]
  constructor
  · intro h
    rcases h with ⟨_, rfl, hread⟩ | ⟨rest, rfl, hc⟩
    · obtain ⟨t, eids, ks, rest, rfl, hpart, hpass, hc⟩ := mem_read_endpointsPart.mp hread
      exact ⟨_, eids, ks, rest, rfl, .endpoints hpart, hpass, hc⟩
    · exact ⟨[commandEndMarker], [], [], rest, rfl, .none, by simp, hc⟩
  · intro h
    obtain ⟨t, eids, ks, rest, rfl, hpart, hpass, hc⟩ := h
    cases hpart with
    | none => exact .inr ⟨rest, rfl, hc⟩
    | endpoints hpart =>
      exact .inl ⟨_, rfl,
        mem_read_endpointsPart.mpr ⟨_, eids, ks, rest, rfl, hpart, hpass, hc⟩⟩

/-- An address, from its first character on. -/
theorem mem_read_claAddr :
    c ∈ ConfigParser.read now ⟨.claAddr,
        written type eid (some []) reliability [] [], [], none⟩ bytes ↔
      ∃ addr rest, bytes = addr ++ claAddrEndDelimiter :: rest ∧ ClaAddrBytes addr ∧
        c ∈ ConfigParser.read now ⟨.claAddrNodesSeparator,
          written type eid (some addr) reliability [] [], [], none⟩ rest := by
  have huntil := @mem_read_until now bytes c
    (fun acc => ⟨.claAddr, written type eid (some acc) reliability [] [], [], none⟩)
    (fun acc => .good ⟨.claAddrNodesSeparator,
      written type eid (some acc) reliability [] [], [], none⟩)
    isClaAddrByte claAddrEndDelimiter (fun _ _ => rfl)
  have hbytes : ∀ addr : Str, (∀ x ∈ addr, isClaAddrByte x ∧ x ≠ claAddrEndDelimiter) ↔
      ClaAddrBytes addr := by
    intro addr
    refine forall₂_congr fun x _ => and_iff_left_of_imp ?_
    intro hx h
    rw [h] at hx
    exact absurd hx (by decide)
  simp only [hbytes] at huntil
  exact huntil

theorem mem_read_claAddrPart :
    c ∈ ConfigParser.read now ⟨.claAddrStartDelimiter,
        written type eid none reliability [] [], [], none⟩ bytes ↔
      ∃ t addr eids ks rest, bytes = t ++ rest ∧ ClaAddrPart t addr eids ks ∧
        (∀ x ∈ ks, x.Passes now) ∧ c = written type eid addr reliability eids ks := by
  rw [mem_read_three claAddrStartDelimiter claAddrNodesSeparator commandEndMarker
    (.good ⟨.claAddr, written type eid (some []) reliability [] [], [], none⟩)
    (.good ⟨.nodeListStartDelimiter, written type eid none reliability [] [], [], none⟩)
    (.done ⟨.claAddrStartDelimiter, written type eid none reliability [] [], [], none⟩)
    (by decide) (fun _ => rfl)]
  constructor
  · intro h
    rcases h with ⟨_, rfl, haddr⟩ | ⟨_, rfl, hread⟩ | ⟨rest, rfl, hc⟩
    · obtain ⟨addr, _, rfl, hbytes, hread⟩ := mem_read_claAddr.mp haddr
      obtain ⟨t, eids, ks, rest, rfl, hpart, hpass, hc⟩ := mem_read_behindClaAddr.mp hread
      refine ⟨_, some addr, eids, ks, rest, ?_, .addr hbytes hpart, hpass, hc⟩
      simp
    · obtain ⟨t, eids, ks, rest, rfl, hpart, hpass, hc⟩ := mem_read_endpointsPart.mp hread
      exact ⟨_, none, eids, ks, rest, rfl, .endpoints hpart, hpass, hc⟩
    · exact ⟨[commandEndMarker], none, [], [], rest, rfl, .none, by simp, hc⟩
  · intro h
    obtain ⟨t, addr, eids, ks, rest, rfl, hpart, hpass, hc⟩ := h
    cases hpart with
    | none => exact .inr (.inr ⟨rest, rfl, hc⟩)
    | endpoints hpart =>
      exact .inr (.inl ⟨_, rfl,
        mem_read_endpointsPart.mpr ⟨_, eids, ks, rest, rfl, hpart, hpass, hc⟩⟩)
    | @addr addr t _ _ hbytes hpart =>
      refine .inl ⟨addr ++ claAddrEndDelimiter :: (t ++ rest), by simp,
        mem_read_claAddr.mpr ⟨addr, _, rfl, hbytes, ?_⟩⟩
      exact mem_read_behindClaAddr.mpr ⟨t, eids, ks, rest, rfl, hpart, hpass, hc⟩

/-- A reliability and what is behind it. -/
theorem mem_read_reliability :
    c ∈ ConfigParser.read now ⟨.nodeConfReliability,
        written type eid none nodeCreate.reliability [] [], [], none⟩ bytes ↔
      ∃ digits rest, Digits digits ∧ ReliabilityPasses digits ∧
        ((bytes = digits ++ nodeConfClaAddrSeparator :: rest ∧
          c ∈ ConfigParser.read now ⟨.claAddrStartDelimiter,
            written type eid none (endReadUint16 digits) [] [], [], none⟩ rest) ∨
        (bytes = digits ++ commandEndMarker :: rest ∧
          c = written type eid none (endReadUint16 digits) [] [])) := by
  have huntil := @mem_read_until_two now bytes c
    (fun acc => ⟨.nodeConfReliability,
      written type eid none nodeCreate.reliability [] [], acc, none⟩)
    (fun acc => if endReadUint16 acc < 100 ∨ 1000 < endReadUint16 acc then .error
      else .good ⟨.claAddrStartDelimiter,
        written type eid none (endReadUint16 acc) [] [], [], none⟩)
    (fun acc => if endReadUint16 acc < 100 ∨ 1000 < endReadUint16 acc then .error
      else .done ⟨.claAddrStartDelimiter,
        written type eid none (endReadUint16 acc) [] [], [], none⟩)
    isDigitByte nodeConfClaAddrSeparator commandEndMarker (by decide) ?_
  · simp only [digits_iff (fun d (hd : d = nodeConfClaAddrSeparator ∨ d = commandEndMarker) =>
      by rcases hd with rfl | rfl <;> decide)] at huntil
    rw [huntil]
    refine exists_congr fun digits => exists_congr fun rest => and_congr_right fun _ => ?_
    by_cases hpass : ReliabilityPasses digits
    · have hnot : ¬ (endReadUint16 digits < 100 ∨ 1000 < endReadUint16 digits) := by
        unfold ReliabilityPasses at hpass
        omega
      rw [if_neg hnot, if_neg hnot]
      exact (and_iff_right hpass).symm
    · have hout : endReadUint16 digits < 100 ∨ 1000 < endReadUint16 digits := by
        unfold ReliabilityPasses at hpass
        omega
      rw [if_pos hout, if_pos hout]
      simp [Next.Sends, hpass]
  · intro acc b
    by_cases haddr : b = nodeConfClaAddrSeparator
    · subst haddr
      rfl
    · by_cases hend : b = commandEndMarker
      · subst hend
        rfl
      · rw [if_neg haddr, if_neg hend]
        have hneither : ¬ (b = nodeConfClaAddrSeparator ∨ b = commandEndMarker) := by
          rintro (h | h)
          · exact haddr h
          · exact hend h
        exact if_neg hneither

/-- The checks of a command without a reliability. -/
theorem passes_of_contacts {k : CommandText} (hnone : k.reliability = none)
    (h : ∀ x ∈ k.contacts, x.Passes now) : k.Passes now where
  reliability := by
    intro digits hdigits
    rw [hnone] at hdigits
    cases hdigits
  contacts := h

/-- The checks of a command with a reliability. -/
theorem passes_of_reliability {k : CommandText} {digits : Str}
    (hsome : k.reliability = some digits) (hpass : ReliabilityPasses digits)
    (h : ∀ x ∈ k.contacts, x.Passes now) : k.Passes now where
  reliability := by
    intro digits' hdigits
    rw [hsome] at hdigits
    rw [← Option.some.inj hdigits]
    exact hpass
  contacts := h

/-- A command behind the EID of its node. -/
theorem mem_read_behindEid {eid : Str} :
    c ∈ ConfigParser.read now ⟨.nodeConfReliabilitySeparator,
        written type (some eid) none nodeCreate.reliability [] [], [], none⟩ bytes ↔
      ∃ t k rest, bytes = t ++ rest ∧ BehindEid t k ∧ (k.type = type ∧ k.eid = eid) ∧
        k.Passes now ∧ c = k.converted := by
  rw [mem_read_three nodeConfReliabilitySeparator nodeConfClaAddrSeparator commandEndMarker
    (.good ⟨.nodeConfReliability,
      written type (some eid) none nodeCreate.reliability [] [], [], none⟩)
    (.good ⟨.claAddrStartDelimiter,
      written type (some eid) none nodeCreate.reliability [] [], [], none⟩)
    (.done ⟨.nodeConfReliabilitySeparator,
      written type (some eid) none nodeCreate.reliability [] [], [], none⟩)
    (by decide) (fun _ => rfl)]
  constructor
  · intro h
    rcases h with ⟨_, rfl, hreliability⟩ | ⟨_, rfl, haddr⟩ | ⟨rest, rfl, hc⟩
    · obtain ⟨digits, rest, hdigits, hpass, ⟨rfl, hread⟩ | ⟨rfl, hc⟩⟩ :=
        mem_read_reliability.mp hreliability
      · obtain ⟨t, addr, eids, ks, rest, rfl, hpart, hcontacts, hc⟩ :=
          mem_read_claAddrPart.mp hread
        refine ⟨_, _, rest, ?_, .both hdigits hpart, ⟨rfl, rfl⟩,
          passes_of_reliability rfl hpass hcontacts, hc⟩
        simp
      · refine ⟨_, _, rest, ?_, .reliability hdigits, ⟨rfl, rfl⟩,
          passes_of_reliability rfl hpass (by simp), hc⟩
        simp
    · obtain ⟨t, addr, eids, ks, rest, rfl, hpart, hcontacts, hc⟩ :=
        mem_read_claAddrPart.mp haddr
      exact ⟨_, _, rest, rfl, .claAddr hpart, ⟨rfl, rfl⟩,
        passes_of_contacts rfl hcontacts, hc⟩
    · exact ⟨[commandEndMarker], _, rest, rfl, .none, ⟨rfl, rfl⟩,
        passes_of_contacts rfl (by simp), hc⟩
  · intro h
    obtain ⟨t, k, rest, rfl, hpart, ⟨rfl, rfl⟩, hpass, hc⟩ := h
    cases hpart with
    | none => exact .inr (.inr ⟨rest, rfl, hc⟩)
    | @claAddr _ _ t addr eids ks hpart =>
      exact .inr (.inl ⟨_, rfl, mem_read_claAddrPart.mpr
        ⟨t, addr, eids, ks, rest, rfl, hpart, hpass.contacts, hc⟩⟩)
    | @reliability _ _ digits hdigits =>
      refine .inl ⟨digits ++ commandEndMarker :: rest, by simp, ?_⟩
      exact mem_read_reliability.mpr
        ⟨digits, rest, hdigits, hpass.reliability digits rfl, .inr ⟨rfl, hc⟩⟩
    | @both _ _ digits t addr eids ks hdigits hpart =>
      refine .inl ⟨digits ++ nodeConfClaAddrSeparator :: (t ++ rest), by simp, ?_⟩
      refine mem_read_reliability.mpr
        ⟨digits, t ++ rest, hdigits, hpass.reliability digits rfl, .inl ⟨rfl, ?_⟩⟩
      exact mem_read_claAddrPart.mpr
        ⟨t, addr, eids, ks, rest, rfl, hpart, hpass.contacts, hc⟩

/-- The EID of the node, from its first character on. -/
theorem mem_read_nodeConfEid :
    c ∈ ConfigParser.read now ⟨.nodeConfEid,
        written type (some []) none reliability [] [], [], none⟩ bytes ↔
      ∃ eid rest, bytes = eid ++ eidEndDelimiter :: rest ∧ EidBytes eid ∧
        c ∈ ConfigParser.read now ⟨.nodeConfReliabilitySeparator,
          written type (some eid) none reliability [] [], [], none⟩ rest :=
  @mem_read_until now bytes c
    (fun acc => ⟨.nodeConfEid, written type (some acc) none reliability [] [], [], none⟩)
    (fun acc => .good ⟨.nodeConfReliabilitySeparator,
      written type (some acc) none reliability [] [], [], none⟩)
    isEidByte eidEndDelimiter (fun _ _ => rfl)

/-- The first character is the type of the command. -/
theorem mem_read_reset :
    c ∈ ConfigParser.reset.read now bytes ↔
      ∃ b type rest, bytes = b :: rest ∧ commandType b = some type ∧
        c ∈ ConfigParser.read now ⟨.nodeConfStartDelimiter,
          written type none none nodeCreate.reliability [] [], [], none⟩ rest := by
  have hbyte : ∀ b, ConfigParser.reset.readByte now b
      = (commandType b).elim .error fun type => .good ⟨.nodeConfStartDelimiter,
          written type none none nodeCreate.reliability [] [], [], none⟩ := by
    intro b
    show _ = (commandType b).elim _ _
    cases htype : commandType b <;> simp only [ConfigParser.readByte, htype] <;> rfl
  rw [mem_read]
  constructor
  · intro h
    obtain ⟨b, rest, rfl, hsends⟩ := h
    rw [hbyte] at hsends
    cases htype : commandType b with
    | none =>
      rw [htype] at hsends
      cases hsends
    | some type =>
      rw [htype] at hsends
      exact ⟨b, type, rest, rfl, htype, hsends⟩
  · intro h
    obtain ⟨b, type, rest, rfl, htype, hread⟩ := h
    refine ⟨b, rest, rfl, ?_⟩
    rw [hbyte, htype]
    exact hread

/-- What a freshly reset parser sends. -/
theorem mem_read_iff :
    c ∈ ConfigParser.reset.read now bytes ↔
      ∃ t k rest, bytes = t ++ rest ∧ Sentence t k ∧ k.Passes now ∧ c = k.converted := by
  rw [mem_read_reset]
  constructor
  · intro h
    obtain ⟨b, type, _, rfl, htype, hstart⟩ := h
    obtain ⟨_, rfl, heid⟩ := (mem_read_one eidStartDelimiter (.good ⟨.nodeConfEid,
      written type (some []) none nodeCreate.reliability [] [], [], none⟩)
      (fun _ => rfl)).mp hstart
    obtain ⟨eid, _, rfl, hbytes, hread⟩ := mem_read_nodeConfEid.mp heid
    obtain ⟨u, k, rest, rfl, hpart, ⟨rfl, rfl⟩, hpass, hc⟩ := mem_read_behindEid.mp hread
    refine ⟨_, k, rest, ?_, .command htype ⟨hbytes, rfl⟩ hpart, hpass, hc⟩
    simp
  · intro h
    obtain ⟨t, k, rest, rfl, hsentence, hpass, hc⟩ := h
    cases hsentence with
    | @command b t u _ htype heid hpart =>
      obtain ⟨hbytes, rfl⟩ := heid
      refine ⟨b, k.type, eidStartDelimiter :: (k.eid ++ eidEndDelimiter :: (u ++ rest)),
        by simp, htype, ?_⟩
      refine (mem_read_one eidStartDelimiter (.good ⟨.nodeConfEid,
        written k.type (some []) none nodeCreate.reliability [] [], [], none⟩)
        (fun _ => rfl)).mpr ⟨_, rfl, mem_read_nodeConfEid.mpr ⟨k.eid, _, rfl, hbytes, ?_⟩⟩
      exact mem_read_behindEid.mpr ⟨u, k, rest, rfl, hpart, ⟨rfl, rfl⟩, hpass, hc⟩

/-- At most one command is sent. -/
theorem length_read_le (p : ConfigParser) (bytes : Str) : (p.read now bytes).length ≤ 1 := by
  induction bytes generalizing p with
  | nil => exact Nat.zero_le 1
  | cons b rest ih =>
    rw [ConfigParser.read]
    cases p.readByte now b with
    | good p => exact ih p
    | done p => exact Nat.le_refl 1
    | error => exact Nat.zero_le 1

theorem read_eq_singleton : p.read now bytes = [c] ↔ c ∈ p.read now bytes := by
  constructor
  · intro h
    rw [h]
    exact List.mem_singleton_self c
  · intro h
    obtain ⟨c', hc'⟩ := List.length_eq_one_iff.mp
      (Nat.le_antisymm (length_read_le p bytes) (List.length_pos_of_mem h))
    rw [hc'] at h ⊢
    rw [List.mem_singleton.mp h]

end Upcn.Config
