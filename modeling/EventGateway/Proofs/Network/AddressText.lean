import EventGateway.Network.Address
import EventGateway.Proofs.Text.Front
import Mathlib.Data.List.TakeWhile

/-! A socket address that is written is read back. -/

namespace EventGateway.Network

open Text

variable {base n : Nat} {r : List Char}

theorem isDigitOf_ten {c : Char} (hc : c.isDigit = false) : isDigitOf 10 c = false := by
  unfold isDigitOf digit?
  simp only [hc, Bool.false_eq_true, if_false]
  rw [if_neg]
  · rfl
  · split
    · omega
    · split <;> omega

/-- What is wanted of a base: its digits are read as what they stand for. -/
def Legible (base : Nat) : Prop := 1 < base ∧ ∀ d < base, digit? base (Nat.digitChar d) = some d

theorem legible_ten : Legible 10 := ⟨by decide, by decide⟩

theorem legible_sixteen : Legible 16 := ⟨by decide, by decide⟩

theorem isDigitOf_toDigits (hb : Legible base) (n : Nat) :
    ∀ c ∈ Nat.toDigits base n, isDigitOf base c = true :=
  forall_toDigits hb.1 (fun d hd => by rw [isDigitOf, hb.2 d hd]; rfl) n

theorem ofDigits_toDigits (hb : Legible base) (n : Nat) : ofDigits base (Nat.toDigits base n) = n :=
  foldl_toDigits hb.1 (fun m d hd => by rw [hb.2 d hd]; rfl) n

theorem readNumber_toDigits {bound : Nat} (hb : Legible base) (hn : n < bound)
    (hr : Stops (isDigitOf base) r) :
    readNumber base bound (Nat.toDigits base n ++ r) = some (n, r) := by
  have htake := takeWhile_front (isDigitOf_toDigits hb n) hr
  have hdrop := dropWhile_front (isDigitOf_toDigits hb n) hr
  have hne : (Nat.toDigits base n).isEmpty = false := by simp
  simp only [readNumber, htake, hdrop, hne, ofDigits_toDigits hb, if_pos hn, Bool.false_eq_true,
    if_false]

theorem readNumber_stops {bound : Nat} (hr : Stops (isDigitOf base) r) :
    readNumber base bound r = none := by
  simp only [readNumber, hr.takeWhile, List.isEmpty_nil, if_true]

theorem stops_ten (hr : Stops Char.isDigit r) : Stops (isDigitOf 10) r :=
  fun c hc => isDigitOf_ten (hr c hc)

theorem readByte_toDigits (a : UInt8) (hr : Stops Char.isDigit r) :
    readByte (Nat.toDigits 10 a.toNat ++ r) = some (a, r) := by
  have htake := takeWhile_front (Json.isDigit_toDigits a.toNat) hr
  have hlength : (Nat.toDigits 10 a.toNat).length ≤ 3 :=
    (Nat.length_toDigits_le_iff (by decide) (by decide)).mpr (by have := a.toNat_lt; omega)
  have hfine : ¬ (3 < (Nat.toDigits 10 a.toNat).length ∨
      1 < (Nat.toDigits 10 a.toNat).length ∧ (Nat.toDigits 10 a.toNat).head? = some '0') := by
    rintro (h | ⟨h, h'⟩)
    · omega
    · exact Json.length_toDigits_of_zero h' h
  simp only [readByte, htake, if_neg hfine,
    readNumber_toDigits legible_ten a.toNat_lt (stops_ten hr)]
  simp

theorem readFour_render (a b c d : UInt8) (hr : Stops Char.isDigit r) :
    readFour ((renderFour a b c d).toList ++ r) = some (⟨a, b, c, d⟩, r) := by
  have htext : (renderFour a b c d).toList ++ r = Nat.toDigits 10 a.toNat ++ '.' ::
      (Nat.toDigits 10 b.toNat ++ '.' :: (Nat.toDigits 10 c.toNat ++ '.' ::
        (Nat.toDigits 10 d.toNat ++ r))) := by
    have hbyte (x : UInt8) : (toString x).toList = Nat.toDigits 10 x.toNat := Nat.toList_repr
    simp [renderFour, hbyte]
  have hdot (s : List Char) : Stops Char.isDigit ('.' :: s) := stops_cons (by decide) s
  have hchar (s : List Char) : readChar '.' ('.' :: s) = some ((), s) := rfl
  rw [htext, readFour, readByte_toDigits a (hdot _)]
  simp only [Option.bind_eq_bind, Option.bind_some, hchar, readByte_toDigits _ (hdot _),
    readByte_toDigits d hr]
  rfl

/-! The groups of a v6 address. -/

theorem readGroup_toDigits (g : UInt16) (hr : Stops (isDigitOf 16) r) :
    readGroup (Nat.toDigits 16 g.toNat ++ r) = some (g, r) := by
  have htake := takeWhile_front (isDigitOf_toDigits legible_sixteen g.toNat) hr
  have hlength : (Nat.toDigits 16 g.toNat).length ≤ 4 :=
    (Nat.length_toDigits_le_iff (by decide) (by decide)).mpr (by have := g.toNat_lt; omega)
  simp only [readGroup, htake, if_neg (Nat.not_lt.mpr hlength),
    readNumber_toDigits legible_sixteen g.toNat_lt hr]
  simp

/-- Neither a digit nor the dot of a v4 address comes next. -/
def Apart (r : List Char) : Prop := Stops (fun c => isDigitOf 16 c || c = '.') r

theorem Apart.sixteen (hr : Apart r) : Stops (isDigitOf 16) r :=
  fun c hc => (Bool.or_eq_false_iff.mp (hr c hc)).1

theorem Apart.dot (hr : Apart r) : Stops (fun c => c = '.') r :=
  fun c hc => (Bool.or_eq_false_iff.mp (hr c hc)).2

theorem Apart.decimal (hr : Apart r) : Stops Char.isDigit r := by
  intro c hc
  have hsixteen := hr.sixteen c hc
  cases hd : c.isDigit with
  | false => rfl
  | true =>
    have hrange := Char.isDigit_iff_toNat.mp hd
    simp [isDigitOf, digit?, hd] at hsixteen
    simp only [Char.reduceToNat] at hrange
    omega

theorem Apart.ten (hr : Apart r) : Stops (isDigitOf 10) r := stops_ten hr.decimal

theorem stops_dropWhile {p q : Char → Bool} {s : List Char} (hs : ∀ c ∈ s, q c = false)
    (hp : Stops p r) (hq : Stops q r) : Stops q ((s ++ r).dropWhile p) := by
  induction s with
  | nil => rwa [List.nil_append, hp.dropWhile]
  | cons c s ih =>
    rw [List.cons_append, List.dropWhile_cons]
    split
    · exact ih fun x hx => hs x (List.mem_cons_of_mem c hx)
    · exact stops_cons (hs c List.mem_cons_self) _

theorem readByte_rest {s : List Char} {a : UInt8} (h : readByte s = some (a, r)) :
    r = s.dropWhile (isDigitOf 10) := by
  simp only [readByte, readNumber] at h
  split at h
  · exact nomatch h
  · split at h
    · exact nomatch h
    · split at h
      · exact (Prod.mk.inj (Option.some.inj h)).2.symm
      · exact nomatch h

theorem readFour_none {s : List Char} (hs : ∀ c ∈ s, isDigitOf 16 c = true) (hr : Apart r) :
    readFour (s ++ r) = none := by
  have hdots : ∀ c ∈ s, decide (c = '.') = false := by
    intro c hc
    refine decide_eq_false fun hdot => ?_
    subst hdot
    exact absurd (hs '.' hc) (by decide)
  have hrest := stops_dropWhile hdots hr.ten hr.dot
  rw [readFour]
  cases hbyte : readByte (s ++ r) with
  | none => rfl
  | some p =>
    obtain ⟨a, t⟩ := p
    rw [← readByte_rest hbyte] at hrest
    have hchar : readChar '.' t = none := by
      cases t with
      | nil => rfl
      | cons c t =>
        have hc : c ≠ '.' := of_decide_eq_false (hrest c (by simp))
        simp [readChar, hc.symm]
    simp [hchar]

def groupText (g : UInt16) : List Char := Nat.toDigits 16 g.toNat

/-- Groups behind another one. -/
def restText (gs : List UInt16) : List Char := gs.flatMap fun g => ':' :: groupText g

def groupsText : List UInt16 → List Char
  | [] => []
  | g :: gs => groupText g ++ restText gs

theorem toList_renderGroups (gs : List UInt16) : (renderGroups gs).toList = groupsText gs := by
  have hgroup (g : UInt16) : (renderGroup g).toList = groupText g := by simp [renderGroup, groupText]
  induction gs with
  | nil => rfl
  | cons g gs ih =>
    cases gs with
    | nil => simp [renderGroups, groupsText, restText, hgroup]
    | cons h gs =>
      have hcons : renderGroups (g :: h :: gs) = renderGroup g ++ ":" ++ renderGroups (h :: gs) := by
        simp [renderGroups, String.intercalate_cons_cons]
      rw [hcons, String.toList_append, String.toList_append, ih, hgroup]
      simp [groupsText, restText]

/-- What ends a row of groups. -/
inductive Closed : List Char → Prop
  | bracket (s : List Char) : Closed (']' :: s)
  | percent (s : List Char) : Closed ('%' :: s)
  | colons (s : List Char) : Closed (':' :: ':' :: s)

theorem readNext_colon {α : Type} (read : Read α) (s : List Char) :
    readNext false read (':' :: s) = read s := rfl

theorem Closed.apart (hr : Closed r) : Apart r := by
  cases hr <;> exact stops_cons (by decide) _

theorem Closed.readNext_none {α : Type} {read : Read α} (hr : Closed r)
    (hread : ∀ s, Apart s → read s = none) (first : Bool) : readNext first read r = none := by
  cases first with
  | true => exact hread r hr.apart
  | false =>
    cases hr with
    | bracket s | percent s => rfl
    | colons s => exact hread (':' :: s) (stops_cons (by decide) s)

theorem Apart.readFour (hr : Apart r) : readFour r = none := by
  have hnone := readFour_none (s := []) (by simp) hr
  exact hnone

theorem Apart.readGroup (hr : Apart r) : readGroup r = none := by
  simp only [Network.readGroup, hr.sixteen.takeWhile, List.length_nil, readNumber_stops hr.sixteen]
  rfl

variable {room : Nat} {first : Bool} {s : List Char}

theorem readGroups_end (hfour : readNext first Network.readFour s = none)
    (hgroup : readNext first Network.readGroup s = none) :
    readGroups (room + 1) first s = (([], false), s) := by simp [readGroups, hfour, hgroup]

theorem readGroups_group {g : UInt16} {t : List Char} {gs : List UInt16} {four : Bool}
    (hfour : readNext first Network.readFour s = none)
    (hgroup : readNext first Network.readGroup s = some (g, t))
    (hrest : readGroups room false t = ((gs, four), r)) :
    readGroups (room + 1) first s = ((g :: gs, four), r) := by
  simp [readGroups, hfour, hgroup, hrest]

theorem readGroups_four {f : Four} (hroom : 0 < room)
    (hfour : readNext first Network.readFour s = some (f, r)) :
    readGroups (room + 1) first s = (([joinBytes f.a f.b, joinBytes f.c f.d], true), r) := by
  simp [readGroups, hroom, hfour]

theorem apart_rest (gs : List UInt16) (hr : Closed r) : Apart (restText gs ++ r) := by
  cases gs with
  | nil => exact hr.apart
  | cons g gs => exact stops_cons (by decide) _

theorem readGroups_rest (gs : List UInt16) {room : Nat} (hroom : gs.length ≤ room)
    (hr : Closed r) : readGroups room false (restText gs ++ r) = ((gs, false), r) := by
  induction gs generalizing room with
  | nil =>
    cases room with
    | zero => rfl
    | succ room =>
      have hfour := hr.readNext_none (fun _ => Apart.readFour) false
      have hgroup := hr.readNext_none (fun _ => Apart.readGroup) false
      exact readGroups_end hfour hgroup
  | cons g gs ih =>
    cases room with
    | zero => simp at hroom
    | succ room =>
      have happart := apart_rest gs hr
      have hfour : readNext false Network.readFour (':' :: (groupText g ++ (restText gs ++ r))) = none :=
        readFour_none (isDigitOf_toDigits legible_sixteen g.toNat) happart
      have hgroup : readNext false Network.readGroup (':' :: (groupText g ++ (restText gs ++ r))) =
          some (g, restText gs ++ r) := readGroup_toDigits g happart.sixteen
      have htext : restText (g :: gs) ++ r = ':' :: (groupText g ++ (restText gs ++ r)) := by
        simp [restText]
      rw [htext]
      exact readGroups_group hfour hgroup (ih (Nat.le_of_succ_le_succ hroom))

theorem readGroups_front (gs : List UInt16) {room : Nat} (hroom : gs.length ≤ room)
    (hr : Closed r) : readGroups room true (groupsText gs ++ r) = ((gs, false), r) := by
  cases room with
  | zero =>
    obtain rfl := List.length_eq_zero_iff.mp (Nat.le_zero.mp hroom)
    rfl
  | succ room =>
    cases gs with
    | nil =>
      have hfour := hr.readNext_none (fun _ => Apart.readFour) true
      have hgroup := hr.readNext_none (fun _ => Apart.readGroup) true
      exact readGroups_end hfour hgroup
    | cons g gs =>
      have happart := apart_rest gs hr
      have hfour : readNext true readFour (groupText g ++ (restText gs ++ r)) = none :=
        readFour_none (isDigitOf_toDigits legible_sixteen g.toNat) happart
      have hgroup : readNext true readGroup (groupText g ++ (restText gs ++ r)) =
          some (g, restText gs ++ r) := readGroup_toDigits g happart.sixteen
      rw [groupsText, List.append_assoc]
      exact readGroups_group hfour hgroup (readGroups_rest gs (Nat.le_of_succ_le_succ hroom) hr)

theorem length_readGroups (room : Nat) (first : Bool) (s : List Char) :
    (readGroups room first s).1.1.length ≤ room := by
  induction room generalizing first s with
  | zero => simp [readGroups]
  | succ room ih =>
    rw [readGroups]
    by_cases hroom : 0 < room
    · rw [if_pos hroom]
      cases readNext first readFour s with
      | some p =>
        simp
        omega
      | none =>
        cases readNext first readGroup s with
        | none => simp
        | some p =>
          have hrest := ih false p.2
          simpa using hrest
    · rw [if_neg hroom]
      cases readNext first readGroup s with
      | none => simp
      | some p =>
        have hrest := ih false p.2
        simpa using hrest

theorem readEight_length {s : List Char} {gs : List UInt16} (h : readEight s = some (gs, r)) :
    gs.length = 8 := by
  have hhead := length_readGroups 8 true s
  simp only [readEight] at h
  split at h
  next height => exact (Prod.mk.inj (Option.some.inj h)).1 ▸ height
  next height =>
  split at h
  · exact nomatch h
  simp only [Option.bind_eq_bind, Option.bind_eq_some_iff] at h
  obtain ⟨_, _, ⟨_, t⟩, _, h⟩ := h
  have htail := length_readGroups (7 - (readGroups 8 true s).1.1.length) true t
  obtain ⟨rfl, _⟩ := Prod.mk.inj (Option.some.inj h)
  simp only [List.length_append, List.length_replicate]
  omega

theorem zerosAhead_split (gs : List UInt16) :
    gs = List.replicate (zerosAhead gs) 0 ++ gs.drop (zerosAhead gs) := by
  have htake : gs.takeWhile (· = 0) = List.replicate (zerosAhead gs) 0 :=
    List.eq_replicate_of_mem fun g hg =>
      of_decide_eq_true (List.mem_takeWhile_imp (p := fun x => decide (x = 0)) hg)
  have hall : gs.takeWhile (· = 0) ++ gs.dropWhile (· = 0) = gs := List.takeWhile_append_dropWhile
  have hdrop : (gs.takeWhile (· = 0) ++ gs.dropWhile (· = 0)).drop (zerosAhead gs) =
      gs.dropWhile (· = 0) := List.drop_left
  rw [hall] at hdrop
  rw [hdrop, ← htake, hall]

theorem zeros_split (gs : List UInt16) :
    gs = gs.take (longestZeros gs).1 ++ (List.replicate (longestZeros gs).2 0 ++
      gs.drop ((longestZeros gs).1 + (longestZeros gs).2)) := by
  induction gs with
  | nil => rfl
  | cons g gs ih =>
    rw [longestZeros]
    split
    · simpa using zerosAhead_split (g :: gs)
    · have hnext : (longestZeros gs).1 + 1 + (longestZeros gs).2 =
          (longestZeros gs).1 + (longestZeros gs).2 + 1 := by omega
      rw [List.take_succ_cons, hnext, List.drop_succ_cons, List.cons_append, ← ih]

theorem join_halves (g : UInt16) : joinBytes (g >>> 8).toUInt8 g.toUInt8 = g := by
  apply UInt16.toNat_inj.mp
  have hg := g.toNat_lt
  simp [joinBytes, Nat.shiftRight_eq_div_pow]
  omega

/-- Fewer than eight groups, two colons, and the groups behind them. -/
theorem readEight_colons {before after : List UInt16} {zeros : Nat} {tail : List Char} {four : Bool}
    (hbefore : before.length < 8) (hcount : before.length + zeros + after.length = 8)
    (hafter : readGroups (7 - before.length) true tail = ((after, four), r)) :
    readEight (groupsText before ++ ':' :: ':' :: tail) =
      some (before ++ List.replicate zeros 0 ++ after, r) := by
  have hhead := readGroups_front before (Nat.le_of_lt hbefore) (.colons tail)
  have hzeros : 8 - before.length - after.length = zeros := by omega
  have hchar (s : List Char) : readChar ':' (':' :: s) = some ((), s) := rfl
  simp only [readEight, hhead, if_neg (Nat.ne_of_lt hbefore), Bool.false_eq_true, if_false,
    Option.bind_eq_bind, Option.bind_some, hchar, hafter, hzeros]
  rfl

theorem readGroups_mapped (mark g h : UInt16) (hr : Apart r) :
    readGroups 7 true (groupText mark ++ ':' :: ((renderFour (g >>> 8).toUInt8 g.toUInt8
      (h >>> 8).toUInt8 h.toUInt8).toList ++ r)) = (([mark, g, h], true), r) := by
  have hcolon (s : List Char) : Apart (':' :: s) := stops_cons (by decide) s
  have hnofour (s : List Char) : readNext true readFour (groupText mark ++ ':' :: s) = none :=
    readFour_none (isDigitOf_toDigits legible_sixteen _) (hcolon s)
  have hgroup (s : List Char) :
      readNext true readGroup (groupText mark ++ ':' :: s) = some (mark, ':' :: s) :=
    readGroup_toDigits mark (hcolon s).sixteen
  have hread := readFour_render (g >>> 8).toUInt8 g.toUInt8 (h >>> 8).toUInt8 h.toUInt8 hr.decimal
  have hpos : 0 < 5 := by decide
  have hrest := readGroups_four hpos ((readNext_colon readFour _).trans hread)
  rw [join_halves, join_halves] at hrest
  exact readGroups_group (hnofour _) (hgroup _) hrest

theorem readEight_render {gs : List UInt16} (hgs : gs.length = 8) (hr : Closed r) :
    readEight ((renderEight gs).toList ++ r) = some (gs, r) := by
  unfold renderEight
  split
  next g h =>
    have hmark : groupText 0xffff = ['f', 'f', 'f', 'f'] := by decide
    have hfront : "::ffff:".toList = [':', ':', 'f', 'f', 'f', 'f', ':'] := by decide
    have hcount : ([] : List UInt16).length + 5 + [0xffff, g, h].length = 8 := rfl
    have hall := readEight_colons (by decide) hcount (readGroups_mapped 0xffff g h hr.apart)
    rw [hmark] at hall
    rw [String.toList_append, List.append_assoc, hfront]
    simp only [List.cons_append, List.nil_append] at hall ⊢
    exact hall
  next =>
    dsimp only
    split
    next hfew =>
      have hhead := readGroups_front gs (Nat.le_of_eq hgs) hr
      rw [toList_renderGroups]
      simp only [readEight, hhead, if_pos hgs]
    next hmany =>
      have hsplit := zeros_split gs
      have hlength := congrArg List.length hsplit
      simp only [List.length_append, List.length_take, List.length_replicate, List.length_drop,
        hgs] at hlength
      have hroom : (gs.drop ((longestZeros gs).1 + (longestZeros gs).2)).length ≤
          7 - (gs.take (longestZeros gs).1).length := by
        simp
        omega
      have hcount : (gs.take (longestZeros gs).1).length + (longestZeros gs).2 +
          (gs.drop ((longestZeros gs).1 + (longestZeros gs).2)).length = 8 := by
        simp
        omega
      have hall := readEight_colons (by omega) hcount (readGroups_front _ hroom hr)
      rw [List.append_assoc, ← hsplit] at hall
      rw [← hall]
      simp [toList_renderGroups]

theorem readPort_toDigits (port : UInt16) :
    readPort (':' :: Nat.toDigits 10 port.toNat) = some (port, []) := by
  have hread := readNumber_toDigits legible_ten port.toNat_lt (stops_nil _)
  rw [List.append_nil] at hread
  have hchar (s : List Char) : readChar ':' (':' :: s) = some ((), s) := rfl
  simp only [readPort, Option.bind_eq_bind, hchar, Option.bind_some, hread]
  simp

theorem readScopeId_toDigits (id : UInt32) (s : List Char) :
    readScopeId ('%' :: (Nat.toDigits 10 id.toNat ++ ']' :: s)) = some (id, ']' :: s) := by
  have hbracket : Stops (isDigitOf 10) (']' :: s) := stops_cons (by decide) s
  have hread := readNumber_toDigits legible_ten id.toNat_lt hbracket
  have hchar (s : List Char) : readChar '%' ('%' :: s) = some ((), s) := rfl
  simp only [readScopeId, Option.bind_eq_bind, hchar, Option.bind_some, hread]
  simp

namespace SocketAddress

/-- A v6 address has eight groups. -/
def WellFormed : SocketAddress → Prop
  | v4 .. => True
  | v6 groups _ _ => groups.length = 8

def scopeText (scopeId : UInt32) : List Char :=
  if scopeId = 0 then [] else '%' :: Nat.toDigits 10 scopeId.toNat

theorem closed_scope (scopeId : UInt32) (s : List Char) :
    Closed (scopeText scopeId ++ ']' :: s) := by
  unfold scopeText
  split
  · exact .bracket s
  · exact .percent _

theorem readScopeId_scopeText (scopeId : UInt32) (s : List Char) :
    (readScopeId (scopeText scopeId ++ ']' :: s)).getD (0, scopeText scopeId ++ ']' :: s) =
      (scopeId, ']' :: s) := by
  unfold scopeText
  split
  next h =>
    rw [h]
    rfl
  next =>
    rw [List.cons_append, readScopeId_toDigits]
    rfl

theorem readV4_render (a b c d : UInt8) (port : UInt16) :
    readV4 (v4 a b c d port).render.toList = some (v4 a b c d port, []) := by
  have htext : (v4 a b c d port).render.toList =
      (renderFour a b c d).toList ++ ':' :: Nat.toDigits 10 port.toNat := by
    have hport : (toString port).toList = Nat.toDigits 10 port.toNat := Nat.toList_repr
    simp [render, hport]
  have hcolon : Stops Char.isDigit (':' :: Nat.toDigits 10 port.toNat) := stops_cons (by decide) _
  have hfour := readFour_render a b c d hcolon
  rw [htext, readV4, hfour]
  simp only [Option.bind_eq_bind, Option.bind_some, readPort_toDigits]
  rfl

theorem render_v6 (groups : List UInt16) (scopeId : UInt32) (port : UInt16) :
    (v6 groups scopeId port).render.toList = '[' :: ((renderEight groups).toList ++
      (scopeText scopeId ++ ']' :: ':' :: Nat.toDigits 10 port.toNat)) := by
  have hport : (toString port).toList = Nat.toDigits 10 port.toNat := Nat.toList_repr
  have hid : (toString scopeId).toList = Nat.toDigits 10 scopeId.toNat := Nat.toList_repr
  have hscope : (if scopeId = 0 then "" else "%" ++ toString scopeId).toList = scopeText scopeId := by
    unfold scopeText
    split
    · rfl
    · simp [hid]
  simp [render, hport, hscope]

theorem readV6_render {groups : List UInt16} (hgroups : groups.length = 8) (scopeId : UInt32)
    (port : UInt16) : readV6 (v6 groups scopeId port).render.toList =
      some (v6 groups scopeId port, []) := by
  have hopen (s : List Char) : readChar '[' ('[' :: s) = some ((), s) := rfl
  have hclose (s : List Char) : readChar ']' (']' :: s) = some ((), s) := rfl
  have height := readEight_render hgroups
    (closed_scope scopeId (':' :: Nat.toDigits 10 port.toNat))
  rw [render_v6, readV6]
  simp only [Option.bind_eq_bind, Option.bind_some, hopen, height, readScopeId_scopeText, hclose,
    readPort_toDigits]
  rfl

/-- An address that is written is read back. -/
theorem ofText?_render {a : SocketAddress} (ha : a.WellFormed) : ofText? a.render = some a := by
  cases a with
  | v4 a b c d port => simp [ofText?, readV4_render]
  | v6 groups scopeId port =>
    have hno : readV4 (v6 groups scopeId port).render.toList = none := by
      have hfour : readFour (v6 groups scopeId port).render.toList = none := by
        rw [render_v6]
        exact Apart.readFour (stops_cons (by decide) _)
      rw [readV4, hfour]
      rfl
    simp [ofText?, hno, readV6_render ha]

theorem wellFormed_of_ofText? {s : String} {a : SocketAddress} (h : ofText? s = some a) :
    a.WellFormed := by
  unfold ofText? at h
  split at h
  next a' hread =>
    obtain rfl := Option.some.inj h
    cases hfour : readV4 s.toList with
    | some p =>
      rw [hfour] at hread
      obtain rfl := Option.some.inj hread
      simp only [readV4, Option.bind_eq_bind, Option.bind_eq_some_iff] at hfour
      obtain ⟨_, _, _, _, h⟩ := hfour
      obtain ⟨rfl, _⟩ := Prod.mk.inj (Option.some.inj h)
      trivial
    | none =>
      rw [hfour] at hread
      simp only [readV6, Option.bind_eq_bind, HOrElse.hOrElse, OrElse.orElse, Option.orElse,
        Option.bind_eq_some_iff] at hread
      obtain ⟨_, _, ⟨gs, t⟩, height, _, _, _, _, h⟩ := hread
      obtain ⟨rfl, _⟩ := Prod.mk.inj (Option.some.inj h)
      exact readEight_length height
  next => exact nomatch h

end SocketAddress

end EventGateway.Network
