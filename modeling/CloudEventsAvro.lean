import CloudEventsAvro.Go.Basic
import CloudEventsAvro.Go.Calendar
import CloudEventsAvro.Go.Time
import CloudEventsAvro.Go.TimeParse
import CloudEventsAvro.Go.TimeRoundTrip
import CloudEventsAvro.Go.FormatParse
import CloudEventsAvro.Sdk.Types
import CloudEventsAvro.Sdk.Event
import CloudEventsAvro.Sdk.Reachable
import CloudEventsAvro.Avro.Record
import CloudEventsAvro.Avro.ToAvro
import CloudEventsAvro.Avro.FromAvro
import CloudEventsAvro.Avro.Decoding
import CloudEventsAvro.Avro.RoundTrip
import CloudEventsAvro.Avro.Image
import CloudEventsAvro.Avro.DataCodec
