import SourceGen.Layout.Item
import SourceGen.Layout.Render
import SourceGen.Syntax.Depth
import SourceGen.Syntax.Grouping

/-!
# Layout of files

The formatted text of a file. Syntax that was kept as tokens has no layout, and neither has a file that
contains it.
-/

namespace SourceGen

namespace SourceFile

/-- The layout of a file. -/
def layout (f : SourceFile) : Layout := do
  let t := Typesetter.ofDepth (max (Attr.depthAll f.attrs) (Item.depthAll f.items) + 2)
  Layout.openAll 0
  Layout.innerAttrs t f.attrs
  f.items.forM (Layout.item t)
  Layout.close

/-- The formatted text of a file, if it has one. -/
def formatted? (f : SourceFile) : Option String :=
  (f.grouped true).layout.marks?.map Layout.render

end SourceFile

end SourceGen
