import SchemaTypes.Generation
import SchemaTypes.Text.Blank
import SchemaTypes.Text.Lowercase
import SchemaTypes.Text.Part

/-!
# Search

The blocks whose names contain a text, whatever the case of the letters. A blank
text is found nowhere; the blanks of any other text count.
-/

set_option autoImplicit false

namespace SchemaTypes

def Block.matches (query : String) (b : Block) : Bool :=
  Text.occursIn (Text.lowerChars query.toList) (Text.lowerChars b.name.toList)

def search (query : String) (blocks : List Block) : List Block :=
  if Text.allBlank query then [] else blocks.filter (Block.matches query)

end SchemaTypes
