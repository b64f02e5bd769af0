import PriceQuote.Catalog.Validation
import PriceQuote.Wire.Basic

/-!
# Products and validations on the wire
-/

namespace PriceQuote.Wire

instance : Wire ProductId where
  encode id := .string id.text
  read scope d := (Reader.text scope d).map ProductId.mk

instance : Wire AddOnId where
  encode id := .string id.text
  read scope d := (Reader.text scope d).map AddOnId.mk

def addOnShape : Shape AddOn :=
  AddOn.mk <$> field "id" <*> field "name" <*> field "price" <*> fieldOr "isRequired" false <*>
    field? "category" <*> fieldOr "dependencies" [] <*> fieldOr "conflicts" []

instance : Wire AddOn where
  encode addOn := .object <|
    put "id" addOn.id ++ put "name" addOn.name ++ put "price" addOn.price ++
    put "isRequired" addOn.required ++ putSome "category" addOn.category ++
    putList "dependencies" addOn.dependencies ++ putList "conflicts" addOn.conflicts
  read := addOnShape.read

def productShape : Shape Product :=
  Product.mk <$> field "id" <*> field "name" <*> fieldOr "description" "" <*> field "basePrice" <*>
    field "category" <*> fieldOr "options" [] <*> freeFields "metadata"

instance : Wire Product where
  encode product := .object <|
    put "id" product.id ++ put "name" product.name ++ put "description" product.description ++
    put "basePrice" product.basePrice ++ put "category" product.category ++
    put "options" product.addOns ++ putFields "metadata" product.metadata
  read := productShape.read

def advisoryShape : Shape Advisory :=
  Advisory.mk <$> field "category" <*> field? "unlessOption" <*>
    fieldOr "field" selectionField <*> field "message"

instance : Wire Advisory where
  encode advisory := .object <|
    put "category" advisory.category ++ putSome "unlessOption" advisory.unlessAddOn ++
    put "field" advisory.field ++ put "message" advisory.message
  read := advisoryShape.read

def issueShape : Shape Issue :=
  Issue.mk <$> field "field" <*> field "message"

instance : Wire Issue where
  encode issue := .object (put "field" issue.field ++ put "message" issue.message)
  read := issueShape.read

def validationShape : Shape Validation :=
  Validation.mk <$> field "isValid" <*> field "errors" <*> field? "warnings"

instance : Wire Validation where
  encode validation := .object <|
    put "isValid" validation.isValid ++ put "errors" validation.errors ++
    putSome "warnings" validation.warnings
  read := validationShape.read

def itemValidationShape : Shape ItemValidation :=
  ItemValidation.mk <$> .required "index" (Reader.natural (UInt64.size - 1)) <*>
    field "productId" <*> field "result"

instance : Wire ItemValidation where
  encode item := .object <|
    [("index", .integer item.index)] ++ put "productId" item.productId ++ put "result" item.result
  read := itemValidationShape.read

def batchShape : Shape Batch :=
  Batch.mk <$> field "isValid" <*> field "items"

instance : Wire Batch where
  encode batch := .object (put "isValid" batch.isValid ++ put "items" batch.items)
  read := batchShape.read

end PriceQuote.Wire
