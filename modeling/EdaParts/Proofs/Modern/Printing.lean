import EdaParts.Proofs.Modern.Spelling

/-!
# Printed expressions read back

What is printed of an expression spells that expression, however far in it stands.

* `Expr.datum` : an expression without its layout;
* `spells_print`, `reads_print` : it is what the printed expression says.
-/

namespace EdaParts.Modern

open Text

namespace Expr

mutual

def datum : Expr → Datum
  | atom text => .word text.toList
  | quoted text => .text text.toList
  | list head items => .list (.word head.toList :: dataOf items)
  | block head items body => .list (.word head.toList :: (dataOf items ++ dataOf body))

def dataOf : List Expr → List Datum
  | [] => []
  | e :: es => e.datum :: dataOf es

end

end Expr

open Modern.Expr

/-! ## Layout -/

theorem toList_newline (depth : Nat) :
    (newline depth).toList = '\n' :: List.replicate (2 * depth) ' ' := String.toList_ofList

theorem isGap_newline (depth : Nat) : ∀ c ∈ (newline depth).toList, isGap c = true := by
  intro c hc
  rw [toList_newline, List.mem_cons] at hc
  rcases hc with rfl | hc
  · rfl
  · rw [List.eq_of_mem_replicate hc]
    rfl

theorem apart_newline (depth : Nat) : Apart (newline depth).toList := by
  rw [toList_newline]
  exact apart_cons rfl

theorem apart_printInline (depth : Nat) (es : List Expr) : Apart (printInline depth es).toList := by
  cases es with
  | nil => exact apart_nil
  | cons e es =>
    rw [printInline, String.toList_append, String.toList_append]
    exact apart_cons rfl

theorem apart_printBody (depth : Nat) (es : List Expr) : Apart (printBody depth es).toList := by
  cases es with
  | nil => exact apart_nil
  | cons e es =>
    rw [printBody, String.toList_append, String.toList_append, toList_newline]
    exact apart_cons rfl

/-! ## Expressions -/

/-- What stands in the parentheses of a block. -/
def blockText (depth : Nat) (head : String) (items body : List Expr) : List Char :=
  head.toList ++ (printInline depth items).toList ++
    ((printBody (depth + 1) body).toList ++ (newline depth).toList)

theorem toList_print_block (depth : Nat) (head : String) (items body : List Expr) :
    ((block head items body).print depth).toList = '(' :: (blockText depth head items body ++ [')']) := by
  simp [print, blockText]

theorem spells_blockText {depth : Nat} {head : String} {items body : List Expr} (hhead : IsAtom head)
    (hitems : Spells (printInline depth items).toList (dataOf items))
    (hbody : Spells (printBody (depth + 1) body).toList (dataOf body)) :
    Spells (blockText depth head items body) (.word head.toList :: (dataOf items ++ dataOf body)) := by
  have hend := hbody.append (spells_blank (isGap_newline depth))
    (apart_newline depth)
  have hinner := ((spells_word hhead).append hitems (apart_printInline depth items)).append hend
    ((apart_printBody (depth + 1) body).append (apart_newline depth))
  simpa [blockText] using hinner

mutual

/-- **A printed expression** spells what it says. -/
theorem spells_print (depth : Nat) : ∀ {e : Expr}, e.WellFormed →
    Spells (e.print depth).toList [e.datum]
  | atom text, h => spells_word h
  | quoted text, _ => spells_quote text
  | list head items, h => by
    have hinner := (spells_word h.1).append (.gap (c := ' ') rfl (spells_printItems depth h.2))
      (apart_cons rfl)
    have hprint := spells_list hinner
    simpa [print, datum] using hprint
  | block head items body, h => by
    rw [toList_print_block]
    exact spells_list
      (spells_blockText h.1 (spells_printInline depth h.2.1) (spells_printBody (depth + 1) h.2.2))

theorem spells_printItems (depth : Nat) : ∀ {es : List Expr}, AllWellFormed es →
    Spells (printItems depth es).toList (dataOf es)
  | [], _ => by
    rw [printItems]
    exact .nil
  | e :: es, h => by
    have hprint := (spells_print depth h.1).append (spells_printInline depth h.2)
      (apart_printInline depth es)
    simpa [printItems, dataOf] using hprint

theorem spells_printInline (depth : Nat) : ∀ {es : List Expr}, AllWellFormed es →
    Spells (printInline depth es).toList (dataOf es)
  | [], _ => by
    rw [printInline]
    exact .nil
  | e :: es, h => by
    have hprint := (spells_print depth h.1).append (spells_printInline depth h.2)
      (apart_printInline depth es)
    have hblank := Spells.gap (c := ' ') rfl hprint
    simpa [printInline, dataOf] using hblank

theorem spells_printBody (depth : Nat) : ∀ {es : List Expr}, AllWellFormed es →
    Spells (printBody depth es).toList (dataOf es)
  | [], _ => by
    rw [printBody]
    exact .nil
  | e :: es, h => by
    have hprint := (spells_print depth h.1).append (spells_printBody depth h.2)
      (apart_printBody depth es)
    have hline := hprint.blank_append (isGap_newline depth)
    simpa [printBody, dataOf] using hline

end

/-- **A printed expression reads back.** -/
theorem reads_print (depth : Nat) {e : Expr} (h : e.WellFormed) :
    Reads (e.print depth).toList [e.datum] :=
  (spells_print depth h).reads

/-- A block on lines of its own, with the end of the last line, is one list. -/
theorem isDocument_block {head : String} {items body : List Expr}
    (h : (block head items body).WellFormed) :
    IsDocument ((block head items body).print 0 ++ "\n")
      (.word head.toList :: (dataOf items ++ dataOf body)) := by
  refine ⟨blockText 0 head items body, ?_, ?_⟩
  · rw [String.toList_append, toList_print_block]
    simp
  · exact spells_blockText h.1 (spells_printInline 0 h.2.1) (spells_printBody 1 h.2.2)

end EdaParts.Modern
